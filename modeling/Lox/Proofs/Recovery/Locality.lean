import Lox.Proofs.Grammar.Soundness

/-!
# Readers look no further than they have to

What a reader makes of some tokens it also makes of them when more tokens follow, more fuel is at
hand and more errors were found before, so long as it stops short of the last of them: the token at
the front is all it ever looks at. An error is about the token at the front where it is raised. The
one exception is the target of an assignment, which is judged after the equals sign was taken, and
inside an expression even after the whole value was.
-/

namespace Lox

/-- What a longer input adds to a cursor: tokens behind those left, and errors from before. -/
structure Extension where
  tokens : List Token
  stop : Token
  errors : List SyntaxError

namespace Cursor

def extend (cursor : Cursor) (extension : Extension) : Cursor :=
  ⟨cursor.rest ++ extension.tokens, extension.stop, cursor.errors ++ extension.errors⟩

end Cursor

/-- The token at the front is the same with the extension as without. -/
def Extension.Fits (extension : Extension) (cursor : Cursor) : Prop :=
  cursor.rest ≠ [] ∨ extension.tokens = [] ∧ extension.stop = cursor.stop

namespace Cursor

variable {extension : Extension} {cursor after : Cursor}

theorem Reaches.fits (reached : cursor.Reaches after) (fits : extension.Fits after) :
    extension.Fits cursor := by
  cases fits with
  | inl more =>
    left
    intro none
    exact more (List.suffix_nil.mp (none ▸ reached.rest))
  | inr same => exact .inr ⟨same.1, same.2.trans reached.stop⟩

theorem next_extend (fits : extension.Fits cursor) :
    (cursor.extend extension).next = cursor.next := by
  unfold Cursor.next extend
  cases front : cursor.rest with
  | nil =>
    obtain more | ⟨none, same⟩ := fits
    · exact absurd front more
    · simp [none, same]
  | cons token rest => simp

theorem isEmpty_extend (fits : extension.Fits cursor) :
    (cursor.extend extension).rest.isEmpty = cursor.rest.isEmpty := by
  unfold extend
  obtain more | ⟨none, -⟩ := fits
  · cases front : cursor.rest with
    | nil => exact absurd front more
    | cons token rest => simp
  · simp [none]

theorem advance_extend (fits : extension.Fits cursor) :
    (cursor.extend extension).advance = cursor.advance.extend extension := by
  unfold advance extend
  obtain more | ⟨none, -⟩ := fits
  · rw [List.tail_append_of_ne_nil more]
  · simp [none]

theorem skipFrom_append {previous : Token} {tokens : List Token} (more : List Token)
    (found : skipFrom previous tokens ≠ []) :
    skipFrom previous (tokens ++ more) = skipFrom previous tokens ++ more := by
  induction tokens generalizing previous with
  | nil => exact absurd rfl found
  | cons token rest ih =>
    rw [skipFrom] at found ⊢
    rw [List.cons_append, skipFrom]
    split
    · rfl
    · next inside =>
      rw [if_neg inside] at found
      exact ih found

theorem resumed_append {start rest : List Token} (more : List Token)
    (found : resumed start rest ≠ []) :
    resumed (start ++ more) (rest ++ more) = resumed start rest ++ more := by
  cases rest with
  | nil => exact absurd rfl found
  | cons token after =>
    simp only [resumed, List.cons_append, List.length_cons, List.length_append] at found ⊢
    -- Both lists grow alike, so whether anything was taken since the start does not change.
    have same : after.length + more.length + 1 ≠ start.length + more.length ↔
        after.length + 1 ≠ start.length := by omega
    simp only [same]
    split
    · rfl
    · next passed =>
      rw [if_neg passed] at found
      exact skipFrom_append more found

theorem recover_extend {start : Cursor} {error : SyntaxError}
    (fits : extension.Fits (cursor.recover start error)) :
    (cursor.extend extension).recover (start.extend extension) error =
      (cursor.recover start error).extend extension := by
  unfold recover extend
  obtain more | ⟨none, -⟩ := fits
  · simp [resumed_append extension.tokens more]
  · simp [none]

end Cursor

/-! ## The readers that every rule is made of -/

/-- The error is about the token at the front, or about the target of an assignment. -/
def SyntaxError.IsAt (error : SyntaxError) (cursor : Cursor) : Prop :=
  error.problem = .invalidAssignmentTarget ∨ error.token = cursor.next

namespace Reader

variable {α β : Type}

/-- What `small` makes of a cursor, `big` makes of it with any extension that fits the cursor where
`small` ends. -/
structure Widens (small big : Reader α) : Prop where
  done : ∀ {cursor after value}, small cursor = .done value after → cursor.Reaches after ∧
    ∀ extension : Extension, extension.Fits after →
      big (cursor.extend extension) = .done value (after.extend extension)
  failed : ∀ {cursor after error}, small cursor = .failed error after → cursor.Reaches after ∧
    error.IsAt after ∧ ∀ extension : Extension, extension.Fits after →
      big (cursor.extend extension) = .failed error (after.extend extension)

namespace Widens

variable {symbol : Symbol}

theorem outOfFuel (big : Reader α) : Widens Reader.outOfFuel big :=
  ⟨nofun, nofun⟩

theorem pure (value : α) : Widens (pure value) (pure value) := by
  refine ⟨fun ran => ?_, nofun⟩
  cases ran
  exact ⟨.refl _, fun _ _ => rfl⟩

theorem fail (problem : SyntaxProblem) :
    Widens (fail problem : Reader α) (Reader.fail problem) := by
  refine ⟨nofun, fun ran => ?_⟩
  cases ran
  refine ⟨.refl _, .inr rfl, fun extension fits => ?_⟩
  rw [Reader.fail, Cursor.next_extend fits]

theorem failAt (token : Token) : Widens (failAt .invalidAssignmentTarget token : Reader α)
    (Reader.failAt .invalidAssignmentTarget token) := by
  refine ⟨nofun, fun ran => ?_⟩
  cases ran
  exact ⟨.refl _, .inl rfl, fun _ _ => rfl⟩

theorem bind {small big : Reader α} {continuation further : α → Reader β}
    (first : Widens small big) (second : ∀ value, Widens (continuation value) (further value)) :
    Widens (small >>= continuation) (big >>= further) := by
  change Widens (Reader.bind small continuation) (Reader.bind big further)
  constructor
  case done =>
    intro cursor after value ran
    unfold Reader.bind at ran ⊢
    cases outcome : small cursor with
    | done intermediate middle =>
      rw [outcome] at ran
      obtain ⟨reached, same⟩ := first.done outcome
      obtain ⟨onward, rest⟩ := (second intermediate).done ran
      -- The extension fits where the second reader ends, so it did where that one started.
      refine ⟨reached.trans onward, fun extension fits => ?_⟩
      rw [same extension (onward.fits fits)]
      exact rest extension fits
    | failed error middle =>
      rw [outcome] at ran
      cases ran
    | outOfFuel =>
      rw [outcome] at ran
      cases ran
  case failed =>
    intro cursor after error ran
    unfold Reader.bind at ran ⊢
    cases outcome : small cursor with
    | done intermediate middle =>
      rw [outcome] at ran
      obtain ⟨reached, same⟩ := first.done outcome
      obtain ⟨onward, located, rest⟩ := (second intermediate).failed ran
      refine ⟨reached.trans onward, located, fun extension fits => ?_⟩
      rw [same extension (onward.fits fits)]
      exact rest extension fits
    | failed error middle =>
      rw [outcome] at ran
      cases ran
      obtain ⟨reached, located, same⟩ := first.failed outcome
      refine ⟨reached, located, fun extension fits => ?_⟩
      rw [same extension fits]
    | outOfFuel =>
      rw [outcome] at ran
      cases ran

theorem ite {condition : Prop} [Decidable condition] {small big other wide : Reader α}
    (present : Widens small big) (absent : Widens other wide) :
    Widens (if condition then small else other) (if condition then big else wide) := by
  split
  · exact present
  · exact absent

theorem next : Widens next next := by
  refine ⟨fun ran => ?_, nofun⟩
  cases ran
  refine ⟨.refl _, fun extension fits => ?_⟩
  rw [Reader.next, Cursor.next_extend fits]

theorem advance : Widens advance advance := by
  refine ⟨fun ran => ?_, nofun⟩
  cases ran
  refine ⟨.advance _, fun extension fits => ?_⟩
  have fitsBefore := (Cursor.Reaches.advance _).fits fits
  rw [Reader.advance, Cursor.next_extend fitsBefore, Cursor.advance_extend fitsBefore]

theorem atEnd : Widens atEnd atEnd := by
  refine ⟨fun ran => ?_, nofun⟩
  cases ran
  refine ⟨.refl _, fun extension fits => ?_⟩
  rw [Reader.atEnd, Cursor.isEmpty_extend fits]

theorem nextIs : Widens (nextIs symbol) (nextIs symbol) := by
  refine ⟨fun ran => ?_, nofun⟩
  cases ran
  refine ⟨.refl _, fun extension fits => ?_⟩
  rw [Reader.nextIs, Cursor.next_extend fits]

theorem record (problem : SyntaxProblem) : Widens (record problem) (record problem) := by
  refine ⟨fun ran => ?_, nofun⟩
  cases ran
  refine ⟨.record _ _, fun extension fits => ?_⟩
  have fitsBefore := (Cursor.Reaches.record _ _).fits fits
  rw [Reader.record, Cursor.next_extend fitsBefore]
  rfl

theorem accept : Widens (accept symbol) (accept symbol) := by
  constructor
  case done =>
    intro cursor after value ran
    unfold Reader.accept at ran ⊢
    split at ran
    · next found =>
      cases ran
      refine ⟨.advance _, fun extension fits => ?_⟩
      have fitsBefore := (Cursor.Reaches.advance _).fits fits
      rw [Cursor.next_extend fitsBefore, if_pos found, Cursor.advance_extend fitsBefore]
    · next missing =>
      cases ran
      refine ⟨.refl _, fun extension fits => ?_⟩
      rw [Cursor.next_extend fits, if_neg missing]
  case failed =>
    intro cursor after error ran
    unfold Reader.accept at ran
    split at ran <;> cases ran

theorem expect (place : Place) : Widens (expect symbol place) (expect symbol place) := by
  constructor
  case done =>
    intro cursor after value ran
    unfold Reader.expect at ran ⊢
    split at ran
    · next found =>
      cases ran
      refine ⟨.advance _, fun extension fits => ?_⟩
      have fitsBefore := (Cursor.Reaches.advance _).fits fits
      rw [Cursor.next_extend fitsBefore, if_pos found, Cursor.advance_extend fitsBefore]
    · cases ran
  case failed =>
    intro cursor after error ran
    unfold Reader.expect at ran ⊢
    split at ran
    · cases ran
    · next missing =>
      cases ran
      refine ⟨.refl _, .inr rfl, fun extension fits => ?_⟩
      rw [Cursor.next_extend fits, if_neg missing]

theorem identifier (role : NameRole) : Widens (identifier role) (identifier role) := by
  constructor
  case done =>
    intro cursor after value ran
    unfold Reader.identifier at ran ⊢
    split at ran
    · next found =>
      cases ran
      refine ⟨.advance _, fun extension fits => ?_⟩
      have fitsBefore := (Cursor.Reaches.advance _).fits fits
      rw [Cursor.next_extend fitsBefore, found, Cursor.advance_extend fitsBefore]
    · cases ran
  case failed =>
    intro cursor after error ran
    unfold Reader.identifier at ran ⊢
    split at ran
    · cases ran
    · next missing =>
      cases ran
      refine ⟨.refl _, .inr rfl, fun extension fits => ?_⟩
      rw [Cursor.next_extend fits]
      split
      · next found => exact absurd found (missing _)
      · rfl

/-- An error that is only recorded, where a condition says so. -/
theorem reported {condition : Prop} [Decidable condition] {problem : SyntaxProblem}
    {small big : Reader α} (rest : Widens small big) :
    Widens (if condition then Reader.record problem >>= fun _ => small else small)
      (if condition then Reader.record problem >>= fun _ => big else big) :=
  ite (bind (record problem) fun _ => rest) rest

/-- A part that is left out where a symbol is at the front. -/
theorem leftOut {small big : Reader α} {absent : α} {continuation further : α → Reader β}
    (part : Widens small big) (rest : ∀ value, Widens (continuation value) (further value)) :
    Widens
      (Reader.nextIs symbol >>= fun found =>
        if found = true then Pure.pure absent >>= continuation else small >>= continuation)
      (Reader.nextIs symbol >>= fun found =>
        if found = true then Pure.pure absent >>= further else big >>= further) :=
  bind nextIs fun _ => ite (bind (pure _) rest) (bind part rest)

theorem terminator : Widens terminator terminator :=
  bind accept fun _ => pure ()

theorem returnsNothing (line : Nat) : Widens (returnsNothing line) (returnsNothing line) :=
  bind next fun _ => pure _

theorem target (expr : Expr Unit) (equals : Token) :
    Widens (target expr equals) (target expr equals) := by
  unfold Reader.target
  split
  · exact pure _
  · exact pure _
  · exact failAt equals

/-- A declaration that fails is recovered from likewise, if anything is left to go on with. -/
theorem recovered {small big : Reader (Stmt Unit)} (widens : Widens small big) :
    Widens
      (fun start => match small start with
        | .done stmt cursor => .done (some stmt) cursor
        | .failed error cursor => .done none (cursor.recover start error)
        | .outOfFuel => .outOfFuel)
      (fun start => match big start with
        | .done stmt cursor => .done (some stmt) cursor
        | .failed error cursor => .done none (cursor.recover start error)
        | .outOfFuel => .outOfFuel) := by
  constructor
  case done =>
    intro cursor after value ran
    split at ran
    · next stmt finish outcome =>
      cases ran
      obtain ⟨reached, same⟩ := widens.done outcome
      refine ⟨reached, fun extension fits => ?_⟩
      simp only [same extension fits]
    · next error finish outcome =>
      cases ran
      obtain ⟨reached, -, same⟩ := widens.failed outcome
      have onward := Cursor.reaches_recover finish cursor error
      refine ⟨reached.trans onward, fun extension fits => ?_⟩
      simp only [same extension (onward.fits fits), Cursor.recover_extend fits]
    · cases ran
  case failed =>
    intro cursor after error ran
    split at ran <;> cases ran

end Widens

end Reader

end Lox
