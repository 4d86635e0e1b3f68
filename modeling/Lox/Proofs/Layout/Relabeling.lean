import Lox.Proofs.Grammar.Lines
import Lox.Proofs.Recovery.Locality

/-!
# The same tokens on other lines

The line of a token is asked for in two places: after a `return`, and while a reader recovers from
an error. So a reader that comes to no error makes the same of the same tokens on other lines, up to
the lines in what it gives, if what follows a `return` on its line still does so, and no more does
than before.
-/

namespace Lox

/-! ## Tokens -/

/-- The same tokens on other lines. The token after a `return` stands on its line in both lists or
in neither of them. -/
inductive Token.Relabels : List Token → List Token → Prop where
  | nil : Relabels [] []
  | cons {token other : Token} {rest others : List Token} (kind : other.kind = token.kind)
    (returns : token.kind = .keyword .kwReturn → ∀ next ∈ rest.head?,
      ∀ nextOther ∈ others.head?, (next.line = token.line ↔ nextOther.line = other.line))
    (further : Relabels rest others) : Relabels (token :: rest) (other :: others)

theorem Token.Relabels.length {tokens others : List Token} (relabels : Relabels tokens others) :
    others.length = tokens.length := by
  induction relabels with
  | nil => rfl
  | cons _ _ _ ih => rw [List.length_cons, List.length_cons, ih]

namespace Cursor

/-- The same for tokens up to the end of the input, where there always is a next one. -/
inductive Relabels.Rest (stop otherStop : Token) : List Token → List Token → Prop where
  | nil (kind : otherStop.kind = stop.kind) : Relabels.Rest stop otherStop [] []
  | cons {token other : Token} {rest others : List Token} (kind : other.kind = token.kind)
    (returns : token.kind = .keyword .kwReturn →
      ((rest.head?.getD stop).line = token.line ↔
        (others.head?.getD otherStop).line = other.line))
    (further : Relabels.Rest stop otherStop rest others) :
    Relabels.Rest stop otherStop (token :: rest) (other :: others)

namespace Relabels.Rest

variable {stop otherStop : Token} {tokens others : List Token}

theorem kind_front (rest : Rest stop otherStop tokens others) :
    (others.head?.getD otherStop).kind = (tokens.head?.getD stop).kind := by
  cases rest with
  | nil kind => exact kind
  | cons kind => exact kind

theorem isEmpty (rest : Rest stop otherStop tokens others) : others.isEmpty = tokens.isEmpty := by
  cases rest <;> rfl

theorem tail (rest : Rest stop otherStop tokens others) :
    Rest stop otherStop tokens.tail others.tail := by
  cases rest with
  | nil kind => exact .nil kind
  | cons _ _ further => exact further

theorem line_second (rest : Rest stop otherStop tokens others)
    (found : (tokens.head?.getD stop).kind = .keyword .kwReturn) :
    (tokens.tail.head?.getD stop).line = (tokens.head?.getD stop).line ↔
      (others.tail.head?.getD otherStop).line = (others.head?.getD otherStop).line := by
  cases rest with
  | nil => exact iff_of_true rfl rfl
  | cons _ returns => exact returns found

end Relabels.Rest

/-- Two cursors before the same tokens on other lines, with no errors so far. -/
structure Relabels (cursor other : Cursor) : Prop where
  rest : Relabels.Rest cursor.stop other.stop cursor.rest other.rest
  clean : cursor.errors = []
  otherClean : other.errors = []

namespace Relabels

variable {cursor other : Cursor}

theorem kind_next (relabels : cursor.Relabels other) : other.next.kind = cursor.next.kind :=
  relabels.rest.kind_front

theorem isEmpty_rest (relabels : cursor.Relabels other) :
    other.rest.isEmpty = cursor.rest.isEmpty :=
  relabels.rest.isEmpty

theorem advance (relabels : cursor.Relabels other) : cursor.advance.Relabels other.advance :=
  ⟨relabels.rest.tail, relabels.clean, relabels.otherClean⟩

/-- What follows a `return` on its line does so in both. -/
theorem line_next_advance (relabels : cursor.Relabels other)
    (found : cursor.next.kind = .keyword .kwReturn) :
    cursor.advance.next.line = cursor.next.line ↔ other.advance.next.line = other.next.line :=
  relabels.rest.line_second found

end Relabels

/-! ## The cursor before all tokens -/

/-- The first token, or what comes after all of them, is what a cursor finds at its front. -/
theorem front_of_takeWhile (stop : Token) (tokens : List Token) :
    (tokens.takeWhile (·.kind ≠ .endOfInput)).head?.getD
        ((tokens.find? (·.kind = .endOfInput)).getD stop) = tokens.head?.getD stop := by
  cases tokens with
  | nil => rfl
  | cons token rest => by_cases ended : token.kind = .endOfInput <;> simp [ended]

theorem Relabels.Rest.ofTokens {tokens others : List Token}
    (relabels : Token.Relabels tokens others) {stop otherStop : Token}
    (kind : otherStop.kind = stop.kind)
    (last : ∀ token ∈ tokens.getLast?, ∀ other ∈ others.getLast?,
      (stop.line = token.line ↔ otherStop.line = other.line)) :
    Rest ((tokens.find? (·.kind = .endOfInput)).getD stop)
      ((others.find? (·.kind = .endOfInput)).getD otherStop)
      (tokens.takeWhile (·.kind ≠ .endOfInput)) (others.takeWhile (·.kind ≠ .endOfInput)) := by
  induction relabels with
  | nil => exact .nil kind
  | @cons token other rest others same returns further ih =>
    by_cases ended : token.kind = .endOfInput
    · have otherEnded : other.kind = .endOfInput := same.trans ended
      simp only [List.find?_cons, List.takeWhile_cons, ended, otherEnded, decide_true,
        not_true_eq_false, decide_false, ne_eq]
      exact .nil (otherEnded.trans ended.symm)
    · have goesOn : ¬ other.kind = .endOfInput := same ▸ ended
      have inside := ih fun lastToken member lastOther otherMember => by
        refine last lastToken ?_ lastOther ?_
        · rw [List.getLast?_cons, member]
          rfl
        · rw [List.getLast?_cons, otherMember]
          rfl
      simp only [List.find?_cons, List.takeWhile_cons, ended, goesOn, decide_true, decide_false,
        ne_eq, not_false_eq_true, ↓reduceIte]
      refine .cons same (fun found => ?_) inside
      rw [front_of_takeWhile, front_of_takeWhile]
      cases further with
      | nil => exact last token rfl other rfl
      | cons => exact returns found _ rfl _ rfl

theorem Relabels.ofTokens {tokens others : List Token} (relabels : Token.Relabels tokens others) :
    (ofTokens tokens).Relabels (ofTokens others) := by
  refine ⟨Rest.ofTokens relabels rfl ?_, rfl, rfl⟩
  intro token member other otherMember
  rw [Option.mem_def] at member otherMember
  rw [member, otherMember]
  exact iff_of_true rfl rfl

end Cursor

/-! ## Readers -/

namespace Reader

variable {α β γ δ : Type}

/-- Unless it adds an error, what the reader gives from the one cursor the other reader gives from
the other one, as far as `view` can tell. -/
def RelabelsAt (view : α → γ) (reader another : Reader α) (cursor other : Cursor) : Prop :=
  ∀ value after, reader cursor = .done value after → after.errors = [] →
    ∃ same finish, another other = .done same finish ∧ view same = view value ∧
      after.Relabels finish

/-- The two readers do the same wherever they read the same tokens on other lines. -/
structure Relabels (view : α → γ) (reader another : Reader α) : Prop where
  widens : Widens reader reader
  agrees : ∀ {cursor other : Cursor}, cursor.Relabels other →
    RelabelsAt view reader another cursor other

theorem RelabelsAt.bind {view : α → γ} {look : β → δ} {reader another : Reader α}
    {continuation further : α → Reader β} {cursor other : Cursor}
    (first : RelabelsAt view reader another cursor other)
    (second : ∀ value same, view same = view value →
      Relabels look (continuation value) (further same)) :
    RelabelsAt look (reader >>= continuation) (another >>= further) cursor other := by
  intro result after ran unharmed
  obtain ⟨value, middle, outcome, ran⟩ := exists_of_bind_done ran
  -- No error was added in the end, so none had been added where the first reader stopped.
  have errors := ((second value value rfl).widens.done ran).1.errors
  rw [unharmed, List.suffix_nil] at errors
  obtain ⟨same, otherMiddle, otherRan, sameView, relabels⟩ := first value middle outcome errors
  rw [bind_of_done otherRan]
  exact (second value same sameView).agrees relabels result after ran unharmed

theorem RelabelsAt.next {look : β → δ} {continuation further : Token → Reader β}
    {cursor other : Cursor}
    (second : RelabelsAt look (continuation cursor.next) (further other.next) cursor other) :
    RelabelsAt look (Reader.next >>= continuation) (Reader.next >>= further) cursor other :=
  second

theorem RelabelsAt.advance {look : β → δ} {continuation further : Token → Reader β}
    {cursor other : Cursor}
    (second : RelabelsAt look (continuation cursor.next) (further other.next) cursor.advance
      other.advance) :
    RelabelsAt look (Reader.advance >>= continuation) (Reader.advance >>= further) cursor other :=
  second

namespace Relabels

variable {view : α → γ} {look : β → δ} {symbol : Symbol} {reader another : Reader α}

theorem bind {continuation further : α → Reader β} (first : Relabels view reader another)
    (second : ∀ value same, view same = view value →
      Relabels look (continuation value) (further same)) :
    Relabels look (reader >>= continuation) (another >>= further) where
  widens := .bind first.widens fun value => (second value value rfl).widens
  agrees relabels := (first.agrees relabels).bind second

/-- What can be told completely is the same on both sides. -/
theorem bindSame {continuation further : α → Reader β} (first : Relabels id reader another)
    (second : ∀ value, Relabels look (continuation value) (further value)) :
    Relabels look (reader >>= continuation) (another >>= further) :=
  bind first fun value same sameView => by
    cases (sameView : same = value)
    exact second value

/-- A reader that never gives anything. -/
theorem ofFails (widens : Widens reader reader)
    (fails : ∀ cursor value after, reader cursor ≠ .done value after) :
    Relabels view reader another :=
  ⟨widens, fun _ value after ran => absurd ran (fails _ value after)⟩

theorem outOfFuel : Relabels view Reader.outOfFuel another :=
  ofFails (.outOfFuel _) fun _ _ _ => nofun

theorem fail (problem : SyntaxProblem) : Relabels view (fail problem) another :=
  ofFails (.fail problem) fun _ _ _ => nofun

theorem failAt (token : Token) :
    Relabels view (failAt .invalidAssignmentTarget token) another :=
  ofFails (.failAt token) fun _ _ _ => nofun

theorem pure {value same : α} (sameView : view same = view value) :
    Relabels view (pure value) (pure same) where
  widens := .pure value
  agrees relabels result after ran _ := by
    cases ran
    exact ⟨same, _, rfl, sameView, relabels⟩

theorem ite {condition : Prop} [Decidable condition] {missing absent : Reader α}
    (present : Relabels view reader another) (otherwise : Relabels view missing absent) :
    Relabels view (if condition then reader else missing)
      (if condition then another else absent) := by
  split
  · exact present
  · exact otherwise

theorem next : Relabels Token.kind next next where
  widens := .next
  agrees relabels value after ran _ := by
    cases ran
    exact ⟨_, _, rfl, relabels.kind_next, relabels⟩

theorem advance : Relabels Token.kind advance advance where
  widens := .advance
  agrees relabels value after ran _ := by
    cases ran
    exact ⟨_, _, rfl, relabels.kind_next, relabels.advance⟩

theorem atEnd : Relabels id atEnd atEnd where
  widens := .atEnd
  agrees relabels value after ran _ := by
    cases ran
    exact ⟨_, _, rfl, relabels.isEmpty_rest, relabels⟩

theorem nextIs : Relabels id (nextIs symbol) (nextIs symbol) where
  widens := .nextIs
  agrees relabels value after ran _ := by
    cases ran
    refine ⟨_, _, rfl, ?_, relabels⟩
    rw [relabels.kind_next]

theorem accept : Relabels id (accept symbol) (accept symbol) where
  widens := .accept
  agrees relabels value after ran _ := by
    unfold Reader.accept at ran ⊢
    rw [relabels.kind_next]
    split at ran
    · next found =>
      cases ran
      exact ⟨true, _, if_pos found, rfl, relabels.advance⟩
    · next missing =>
      cases ran
      exact ⟨false, _, if_neg missing, rfl, relabels⟩

theorem expect (place : Place) :
    Relabels Token.kind (expect symbol place) (expect symbol place) where
  widens := .expect place
  agrees relabels value after ran _ := by
    unfold Reader.expect at ran ⊢
    split at ran
    · next found =>
      cases ran
      refine ⟨_, _, if_pos ?_, relabels.kind_next, relabels.advance⟩
      rw [relabels.kind_next, found]
    · cases ran

theorem identifier (line : Nat) (role : NameRole) :
    Relabels (Name.onLine line) (identifier role) (identifier role) where
  widens := .identifier role
  agrees relabels value after ran _ := by
    unfold Reader.identifier at ran ⊢
    rw [relabels.kind_next]
    split at ran
    · next text found =>
      cases ran
      exact ⟨_, _, rfl, rfl, relabels.advance⟩
    · cases ran

/-- What the token at the front is, it is on any line. -/
theorem byKind {continuation further : Token → Reader β}
    (second : ∀ kind here there,
      Relabels look (continuation ⟨kind, here⟩) (further ⟨kind, there⟩)) :
    Relabels look (Reader.next >>= continuation) (Reader.next >>= further) :=
  bind next fun ⟨kind, here⟩ ⟨otherKind, there⟩ sameKind => by
    cases (sameKind : otherKind = kind)
    exact second kind here there

theorem terminator : Relabels id terminator terminator :=
  bindSame accept fun _ => pure rfl

/-- Where an error is recorded there is nothing to show. -/
theorem reported {condition : Prop} [Decidable condition] {problem : SyntaxProblem}
    (rest : Relabels view reader another) :
    Relabels view (if condition then Reader.record problem >>= fun _ => reader else reader)
      (if condition then Reader.record problem >>= fun _ => another else another) := by
  have recorded : Relabels id (Reader.record problem) (Reader.record problem) := by
    refine ⟨.record problem, fun _ value after ran unharmed => ?_⟩
    cases ran
    cases unharmed
  exact ite (bindSame recorded fun _ => rest) rest

/-- A part that is left out where a symbol is at the front. -/
theorem leftOut {absent : α} {continuation further : α → Reader β}
    (part : Relabels view reader another)
    (rest : ∀ value same, view same = view value →
      Relabels look (continuation value) (further same)) :
    Relabels look
      (Reader.nextIs symbol >>= fun found =>
        if found = true then Pure.pure absent >>= continuation else reader >>= continuation)
      (Reader.nextIs symbol >>= fun found =>
        if found = true then Pure.pure absent >>= further else another >>= further) :=
  bindSame nextIs fun _ => ite (bind (pure rfl) rest) (bind part rest)

end Relabels

end Reader

end Lox
