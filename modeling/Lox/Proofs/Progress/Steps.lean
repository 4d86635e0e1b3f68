import Lox.Proofs.Progress.Trails

/-!
# Single tokens

What every rule is made of follows its reader. By index the token at the front is there to be read, and the
index is moved on only where tokens are left.
-/

namespace Lox.Tracer

variable {α β : Type}

/-! ## The token at the front -/

namespace GoesTo

variable {pointer : Pointer} (inRange : pointer.InRange)
include inRange

theorem pure (value : α) : GoesTo (pure value) value pointer pointer :=
  ⟨inRange.refl, [], [], rfl, List.forall_mem_nil _, List.forall_mem_nil _⟩

theorem current : GoesTo current pointer.current pointer pointer :=
  ⟨inRange.refl, [], [], rfl, List.forall_mem_nil _, List.forall_mem_nil _⟩

theorem keep (error : SyntaxError) :
    GoesTo (keep error) () pointer { pointer with errors := error :: pointer.errors } :=
  ⟨⟨rfl, Nat.le_refl _, inRange.current⟩, [], [], rfl, List.forall_mem_nil _, List.forall_mem_nil _⟩

theorem tokenAt {index : Nat} {token : Token} (found : pointer.tokens[index]? = some token)
    (within : index ≤ Token.firstEnd pointer.tokens) :
    GoesTo (tokenAt index) token pointer pointer := by
  refine ⟨inRange.refl, [index], [], ?_, List.forall_mem_singleton.mpr within,
    List.forall_mem_nil _⟩
  rw [Tracer.tokenAt, found]

theorem next : GoesTo next pointer.cursor.next pointer pointer :=
  (current inRange).bind (tokenAt inRange inRange.getElem?_current inRange.current)

theorem previous {token : Token} (found : pointer.tokens[pointer.current - 1]? = some token) :
    GoesTo previous token pointer pointer :=
  (current inRange).bind (tokenAt inRange found (Nat.le_trans (Nat.sub_le _ _) inRange.current))

theorem atEnd : GoesTo atEnd pointer.cursor.rest.isEmpty pointer pointer := by
  have isEmpty : decide (pointer.cursor.next.kind = .endOfInput) = pointer.cursor.rest.isEmpty := by
    rw [Bool.eq_iff_iff, decide_eq_true_iff, List.isEmpty_iff]
    exact inRange.next_kind_eq_iff
  rw [← isEmpty]
  exact (next inRange).bind (pure inRange _)

theorem nextIs (symbol : Symbol) :
    GoesTo (nextIs symbol) (decide (pointer.cursor.next.kind = .symbol symbol)) pointer pointer := by
  refine (atEnd inRange).bind ?_
  by_cases none : pointer.cursor.rest = []
  · rw [none, List.isEmpty_nil, if_pos rfl, inRange.next_kind_eq_iff.mpr none]
    exact pure inRange _
  · rw [List.isEmpty_eq_false_iff.mpr none, if_neg Bool.false_ne_true]
    exact (next inRange).bind (pure inRange _)

omit inRange in
theorem moveTo {index : Nat} (behind : pointer.current ≤ index)
    (within : index ≤ Token.firstEnd pointer.tokens) :
    GoesTo (moveTo index) () pointer { pointer with current := index } :=
  ⟨⟨rfl, behind, within⟩, [], [index], rfl, List.forall_mem_nil _,
    List.forall_mem_singleton.mpr within⟩

/-- Where there are tokens left one of them is taken. -/
theorem advance (more : pointer.cursor.rest ≠ []) :
    GoesTo advance pointer.cursor.next pointer pointer.succ := by
  have onward := inRange.onward_succ more
  have before : pointer.succ.tokens[pointer.succ.current - 1]? = some pointer.cursor.next :=
    inRange.getElem?_current
  refine (atEnd inRange).bind ?_
  rw [List.isEmpty_eq_false_iff.mpr more, if_neg Bool.false_ne_true]
  -- The token is read only once the index is beyond it.
  exact (current inRange).bind ((moveTo (Nat.le_succ _) onward.bound).bind
    (previous (onward.inRange inRange) before))

/-- At the end the token before it is given again. -/
theorem advance_of_rest_eq_nil (none : pointer.cursor.rest = []) :
    ∃ token, GoesTo Tracer.advance token pointer pointer := by
  obtain ⟨token, found⟩ := inRange.exists_previous
  refine ⟨token, (atEnd inRange).bind ?_⟩
  rw [none, List.isEmpty_nil, if_pos rfl]
  exact previous inRange found

end GoesTo

theorem FollowsAt.pure {bound : Nat} {pointer : Pointer} (inRange : pointer.InRange) (value : α) :
    FollowsAt bound pointer ((pure value : Tracer α) pointer) (.done value pointer.cursor) :=
  .ofGoesTo (.pure inRange value)

theorem FollowsAt.advance {bound : Nat} {pointer : Pointer} (inRange : pointer.InRange)
    (more : pointer.cursor.rest ≠ []) :
    FollowsAt bound pointer (advance pointer)
      (.done pointer.cursor.next pointer.cursor.advance) := by
  rw [← pointer.cursor_succ]
  exact .ofGoesTo (.advance inRange more)

/-! ## Following from anywhere further on -/

/-- The tracer follows the reader from every index that is not before the first one given. -/
def Follows (within bound : Nat) (tracer : Tracer α) (reader : Reader α) : Prop :=
  ∀ pointer : Pointer, pointer.InRange → within ≤ pointer.current →
    FollowsAt bound pointer (tracer pointer) (reader pointer.cursor)

/-- What is called is called beyond where the tracer starts. -/
abbrev FollowsBeyond (tracer : Tracer α) (reader : Reader α) : Prop :=
  ∀ within, Follows within (within + 1) tracer reader

/-- What comes after something that is followed from an index is followed from further on. -/
theorem FollowsAt.bindFollows {within bound : Nat} {pointer : Pointer} {tracer : Tracer α}
    {reader : Reader α} {further : α → Tracer β} {continuation : α → Reader β}
    (first : FollowsAt bound pointer (tracer pointer) (reader pointer.cursor))
    (inRange : pointer.InRange) (few : within ≤ pointer.current)
    (second : ∀ value, Follows within bound (further value) (continuation value)) :
    FollowsAt bound pointer ((tracer >>= further) pointer)
      ((reader >>= continuation) pointer.cursor) :=
  first.bind fun value middle _ onward =>
    second value middle (onward.inRange inRange) (Nat.le_trans few onward.current)

/-- What comes next is known to depend on the token at the front. -/
theorem FollowsAt.bindNext {bound : Nat} {pointer : Pointer} {further : Token → Tracer β}
    {continuation : Token → Reader β} (inRange : pointer.InRange)
    (rest : FollowsAt bound pointer (further pointer.cursor.next pointer)
      (continuation pointer.cursor.next pointer.cursor)) :
    FollowsAt bound pointer ((Tracer.next >>= further) pointer)
      ((Reader.next >>= continuation) pointer.cursor) :=
  .after (.next inRange) rest

/-- A token that is taken leaves room for what starts right after it. -/
theorem FollowsAt.after_advance {within : Nat} {pointer : Pointer} {tracer : Tracer β}
    {reader : Reader β} (inRange : pointer.InRange) (few : within ≤ pointer.current)
    (more : pointer.cursor.rest ≠ []) (second : Follows (within + 1) (within + 1) tracer reader) :
    FollowsAt (within + 1) pointer ((Tracer.advance >>= fun _ => tracer) pointer)
      ((Reader.advance >>= fun _ => reader) pointer.cursor) := by
  change FollowsAt _ pointer _ (reader pointer.cursor.advance)
  rw [← pointer.cursor_succ]
  exact .after (.advance inRange more)
    (second pointer.succ ((inRange.onward_succ more).inRange inRange) (Nat.succ_le_succ few))

namespace Follows

variable {within bound : Nat} {symbol : Symbol} {tracer other : Tracer α} {reader another : Reader α}

theorem bind {further : α → Tracer β} {continuation : α → Reader β}
    (first : Follows within bound tracer reader)
    (second : ∀ value, Follows within bound (further value) (continuation value)) :
    Follows within bound (tracer >>= further) (reader >>= continuation) :=
  fun pointer inRange few => (first pointer inRange few).bindFollows inRange few second

theorem ite {condition : Prop} [Decidable condition] (present : Follows within bound tracer reader)
    (absent : Follows within bound other another) :
    Follows within bound (if condition then tracer else other)
      (if condition then reader else another) := by
  split
  · exact present
  · exact absent

theorem outOfFuel : Follows within bound (Tracer.outOfFuel : Tracer α) Reader.outOfFuel :=
  fun _ _ _ => .outOfFuel

theorem pure (value : α) : Follows within bound (pure value) (pure value) :=
  fun _ inRange _ => .pure inRange value

theorem failAt (problem : SyntaxProblem) (token : Token) :
    Follows within bound (failAt problem token : Tracer α) (Reader.failAt problem token) :=
  fun _ inRange _ => .failed inRange ⟨problem, token⟩

theorem fail (problem : SyntaxProblem) :
    Follows within bound (fail problem : Tracer α) (Reader.fail problem) :=
  fun _ inRange _ => .after (.next inRange) (.failed inRange ⟨problem, _⟩)

theorem next : Follows within bound next Reader.next :=
  fun _ inRange _ => .ofGoesTo (.next inRange)

theorem atEnd : Follows within bound atEnd Reader.atEnd :=
  fun _ inRange _ => .ofGoesTo (.atEnd inRange)

theorem nextIs : Follows within bound (nextIs symbol) (Reader.nextIs symbol) :=
  fun _ inRange _ => .ofGoesTo (.nextIs inRange symbol)

/-- At the end of the input the token that is given is another one, but nothing is ever done with it. -/
theorem advance (rest : Follows within bound tracer reader) :
    Follows within bound (advance >>= fun _ => tracer) (Reader.advance >>= fun _ => reader) := by
  intro pointer inRange few
  change FollowsAt bound pointer _ (reader pointer.cursor.advance)
  by_cases none : pointer.cursor.rest = []
  · have still : pointer.cursor.advance = pointer.cursor := by
      unfold Cursor.advance
      rw [none, List.tail_nil, ← none]
    rw [still]
    obtain ⟨token, goes⟩ := GoesTo.advance_of_rest_eq_nil inRange none
    exact .after goes (rest pointer inRange few)
  · rw [← pointer.cursor_succ]
    have onward := inRange.onward_succ none
    exact .after (.advance inRange none)
      (rest pointer.succ (onward.inRange inRange) (Nat.le_trans few onward.current))

theorem record (problem : SyntaxProblem) :
    Follows within bound (record problem) (Reader.record problem) :=
  fun _ inRange _ => .after (.next inRange) (.ofGoesTo (.keep inRange _))

theorem accept : Follows within bound (accept symbol) (Reader.accept symbol) := by
  have same : Reader.accept symbol = Reader.nextIs symbol >>= fun found =>
      if found = true then Reader.advance >>= fun _ => Pure.pure true else Pure.pure false := by
    funext cursor
    change _ = (if decide _ = true then Reader.advance >>= fun _ => Pure.pure true else
      (Pure.pure false : Reader Bool)) cursor
    unfold Reader.accept
    by_cases found : cursor.next.kind = .symbol symbol
    · rw [if_pos found, if_pos (decide_eq_true found)]
      rfl
    · rw [if_neg found, if_neg (by simpa using found)]
      rfl
  rw [same]
  exact bind nextIs fun found => ite (advance (pure true)) (pure false)

theorem terminator : Follows within bound terminator Reader.terminator :=
  bind accept fun _ => pure ()

theorem returnsNothing (line : Nat) :
    Follows within bound (returnsNothing line) (Reader.returnsNothing line) :=
  bind next fun _ => pure _

theorem target (expr : Expr Unit) (equals : Token) :
    Follows within bound (target expr equals) (Reader.target expr equals) := by
  cases expr with
  | reference name _ => exact pure _
  | property object name => exact pure _
  | _ => exact failAt _ equals

theorem expect (place : Place) : Follows within bound (expect symbol place)
    (Reader.expect symbol place) := by
  intro pointer inRange few
  unfold Reader.expect
  refine .after (.nextIs inRange symbol) ?_
  by_cases found : pointer.cursor.next.kind = .symbol symbol
  · rw [if_pos found, if_pos (decide_eq_true found)]
    exact .advance inRange (Cursor.rest_ne_nil pointer.cursor_ends (by simp [found]))
  · rw [if_neg found, if_neg (by simpa using found)]
    exact fail _ pointer inRange few

theorem identifier (role : NameRole) : Follows within bound (identifier role)
    (Reader.identifier role) := by
  intro pointer inRange few
  unfold Reader.identifier
  refine .after (.next inRange) ?_
  cases found : pointer.cursor.next.kind with
  | identifier text =>
    have more := Cursor.rest_ne_nil pointer.cursor_ends (by simp [found])
    refine .after (.advance inRange more) ?_
    rw [← pointer.cursor_succ]
    exact .pure ((inRange.onward_succ more).inRange inRange) _
  | _ => exact fail _ pointer inRange few

/-- An error that is only recorded, where a condition says so. -/
theorem reported {condition : Prop} [Decidable condition] {problem : SyntaxProblem}
    (rest : Follows within bound tracer reader) :
    Follows within bound (if condition then Tracer.record problem >>= fun _ => tracer else tracer)
      (if condition then Reader.record problem >>= fun _ => reader else reader) :=
  ite (bind (record problem) fun _ => rest) rest

/-- A part that is left out where a symbol is at the front. -/
theorem leftOut {absent : α} {further : α → Tracer β} {continuation : α → Reader β}
    (part : Follows within bound tracer reader)
    (rest : ∀ value, Follows within bound (further value) (continuation value)) :
    Follows within bound
      (Tracer.nextIs symbol >>= fun found =>
        if found = true then Pure.pure absent >>= further else tracer >>= further)
      (Reader.nextIs symbol >>= fun found =>
        if found = true then Pure.pure absent >>= continuation else reader >>= continuation) :=
  bind nextIs fun _ => ite (bind (pure _) rest) (bind part rest)

/-- Where a symbol is at the front there are tokens left. -/
theorem ifNext
    (present : ∀ pointer : Pointer, pointer.InRange → within ≤ pointer.current →
      pointer.cursor.rest ≠ [] → FollowsAt bound pointer (tracer pointer) (reader pointer.cursor))
    (absent : Follows within bound other another) :
    Follows within bound (Tracer.nextIs symbol >>= fun found => if found = true then tracer else other)
      (Reader.nextIs symbol >>= fun found => if found = true then reader else another) := by
  intro pointer inRange few
  change FollowsAt bound pointer _ ((if decide _ = true then reader else another) pointer.cursor)
  refine .after (.nextIs inRange symbol) ?_
  by_cases found : pointer.cursor.next.kind = .symbol symbol
  · rw [if_pos (decide_eq_true found), if_pos (decide_eq_true found)]
    exact present pointer inRange few (Cursor.rest_ne_nil pointer.cursor_ends (by simp [found]))
  · rw [if_neg (by simpa using found), if_neg (by simpa using found)]
    exact absent pointer inRange few

/-- A token that is there to be taken leaves room for what starts right after it. -/
theorem after_expect {place : Place} {further : Token → Tracer β} {continuation : Token → Reader β}
    (second : ∀ token, Follows (within + 1) (within + 1) (further token) (continuation token)) :
    Follows within (within + 1) (Tracer.expect symbol place >>= further)
      (Reader.expect symbol place >>= continuation) := by
  intro pointer inRange few
  refine (expect place pointer inRange few).bind fun token middle ran onward => ?_
  unfold Reader.expect at ran
  split at ran
  · next found =>
    obtain ⟨_, shorter⟩ := Cursor.takes_advance pointer.cursor_ends found (by simp)
    obtain ⟨rfl, stopped⟩ := Parsed.done.inj ran
    rw [stopped] at shorter
    exact second _ middle (onward.inRange inRange) (Nat.lt_of_le_of_lt few (onward.current_lt shorter))
  · cases ran

end Follows

end Lox.Tracer
