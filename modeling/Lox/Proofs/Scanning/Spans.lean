import Lox.Proofs.Scanning.Cuts
import Lox.Proofs.Scanning.Scanner

/-!
# The scan divides the source

Every item of a scan is tied to a slice of the source, and between the slices there are only blanks
and comments. Slices and gaps, in order, are the source; the last item is the end of the input,
which is tied to nothing. A text is the list of its characters, so no slice begins or ends inside of
one.
-/

namespace Lox.Scan

/-! ## Gaps -/

/-- Blanks and comments, with what follows them. -/
inductive IsGap (following : List Char) : List Char → Prop where
  | nil : IsGap following []
  | blank {c : Char} {rest : List Char} (blank : isBlank c = true)
    (further : IsGap following rest) : IsGap following (c :: rest)
  | comment {slice rest : List Char} (comment : IsComment slice (rest ++ following))
    (further : IsGap following rest) : IsGap following (slice ++ rest)

/-- One more piece that means nothing makes a gap longer. -/
theorem IsGap.append {slice following gap : List Char} (isGap : IsGap (slice ++ following) gap)
    (described : Piece.blank.Describes slice following) : IsGap following (gap ++ slice) := by
  induction isGap with
  | nil =>
    obtain ⟨c, blank, rfl⟩ | comment := described
    · exact .blank blank .nil
    · simpa using IsGap.comment (by simpa using comment) .nil
  | blank blank _ ih => exact .blank blank ih
  | comment comment _ ih =>
    rw [List.append_assoc]
    rw [← List.append_assoc] at comment
    exact .comment comment ih

/-! ## Items where they stand -/

/-- What an item says of the slice it is tied to, given what stands before and after that. -/
def Item.Covers (before slice after : List Char) : Item → Prop
  | .token t =>
    slice = t.lexeme.toList ∧ t.line = 1 + (before ++ slice).count '\n' ∧
      ∀ contents, t.kind = .text contents → slice = '"' :: contents.toList ++ ['"']
  | .error e =>
    e.line = 1 + before.count '\n' ∧
      match e.problem with
      | .unexpectedCharacter c =>
        slice = [c] ∧ e.problem.message = "Unexpected character: " ++ String.ofList slice
      | .unterminatedText =>
        after = [] ∧ (∃ contents, slice = '"' :: contents ∧ '"' ∉ contents) ∧
          e.problem.message = "Unterminated string."

/-- An item, the slice that it is tied to, and the gap before that. -/
structure Span where
  gap : List Char
  slice : List Char
  item : Item
  deriving DecidableEq, Repr

/-- What a span takes up of the source. -/
def Span.text (span : Span) : List Char := span.gap ++ span.slice

/-- A span between what stands before it and what stands after it. -/
structure Span.Stands (before after : List Char) (span : Span) : Prop where
  gap : IsGap (span.slice ++ after) span.gap
  item : span.item.Covers (before ++ span.gap) span.slice after

/-- The spans of some segments from a given line on, where a gap has been left open. -/
def spansFrom (line : Nat) (gap : List Char) : List Segment → List Span
  | [] => [⟨gap, [], .token ⟨.endOfInput, line⟩⟩]
  | segment :: rest =>
    let next := line + segment.slice.count '\n'
    match segment.item? line with
    | none => spansFrom next (gap ++ segment.slice) rest
    | some item => ⟨gap, segment.slice, item⟩ :: spansFrom next [] rest

/-- The spans of a source text, one for each item. -/
def spans (source : String) : List Span := spansFrom 1 [] (segments source.toList)

theorem map_item_spansFrom (line : Nat) (gap : List Char) (segments : List Segment) :
    (spansFrom line gap segments).map Span.item = itemsFrom line segments := by
  induction segments generalizing line gap with
  | nil => rfl
  | cons segment rest ih =>
    rw [spansFrom, itemsFrom_cons]
    cases segment.item? line <;> simp [ih]

theorem map_item_spans (source : String) : (spans source).map Span.item = items source :=
  map_item_spansFrom 1 [] _

theorem flatMap_text_spansFrom (line : Nat) (gap : List Char) (segments : List Segment) :
    (spansFrom line gap segments).flatMap Span.text = gap ++ segments.flatMap Segment.slice := by
  induction segments generalizing line gap with
  | nil => simp [spansFrom, Span.text]
  | cons segment rest ih =>
    rw [spansFrom]
    cases segment.item? line <;> simp [ih, Span.text]

theorem flatMap_text_spans (source : String) :
    (spans source).flatMap Span.text = source.toList := by
  rw [spans, flatMap_text_spansFrom, flatMap_slice_segments, List.nil_append]

variable {before : List Char} {c : Char} {after : List Char}

/-- What the first piece of a text yields covers it. -/
theorem covers_firstCut {item : Item}
    (found : Segment.item? (1 + before.count '\n')
      ⟨(firstCut c after).piece, (firstCut c after).slice⟩ = some item) :
    item.Covers before (firstCut c after).slice (firstCut c after).rest := by
  have described := (firstCut_cases c after).describes
  unfold Segment.item? at found
  dsimp only at found
  split at found
  · cases found
  · next kind piece =>
    cases found
    rw [piece] at described
    refine ⟨described.2, by simp [Nat.add_assoc], ?_⟩
    rintro contents rfl
    simpa [Token.Kind.lexeme] using described.2
  · next problem piece =>
    cases found
    rw [piece] at described
    cases problem with
    | unexpectedCharacter stray =>
      have single : (firstCut c after).slice = [stray] := described
      refine ⟨rfl, single, ?_⟩
      rw [single, ← String.singleton_eq_ofList]
      rfl
    | unterminatedText => exact ⟨rfl, described.1, described.2, rfl⟩

/-- What yields nothing means nothing. -/
theorem describes_blank {line : Nat} (nothing : Segment.item? line
      ⟨(firstCut c after).piece, (firstCut c after).slice⟩ = none) :
    Piece.blank.Describes (firstCut c after).slice (firstCut c after).rest := by
  have described := (firstCut_cases c after).describes
  unfold Segment.item? at nothing
  dsimp only at nothing
  split at nothing
  · next piece =>
    rw [piece] at described
    exact described
  · cases nothing
  · cases nothing

/-- Where a slice has been read, the line has gone up by its newlines. -/
theorem line_append (before slice : List Char) :
    1 + before.count '\n' + slice.count '\n' = 1 + (before ++ slice).count '\n' := by
  rw [List.count_append, Nat.add_assoc]

/-- The spans of what is left of a text stand where they are, with a gap left open before it. -/
theorem stands_spansFrom (before gap : List Char) : (text : List Char) → IsGap text gap →
    ∀ {front span back},
      spansFrom (1 + (before ++ gap).count '\n') gap (segments text) = front ++ span :: back →
        span.Stands (before ++ front.flatMap Span.text) (back.flatMap Span.text)
  | [], isGap, front, span, back, split => by
    rw [segments_nil, spansFrom, List.cons_eq_append_iff] at split
    obtain ⟨rfl, same⟩ | ⟨further, _, impossible⟩ := split
    · cases same
      exact ⟨isGap, rfl, by simp, nofun⟩
    · simp at impossible
  | c :: after, isGap, front, span, back, split => by
    rw [← slice_append_rest_firstCut c after] at isGap
    rw [segments_cons, spansFrom] at split
    cases found : Segment.item? (1 + (before ++ gap).count '\n')
      ⟨(firstCut c after).piece, (firstCut c after).slice⟩ with
    | none =>
      -- The piece is blank: the gap stays open and takes it up.
      simp only [found, line_append, List.append_assoc] at split
      exact stands_spansFrom before _ (firstCut c after).rest
        (isGap.append (describes_blank found)) split
    | some item =>
      simp only [found, line_append, List.cons_eq_append_iff] at split
      obtain ⟨rfl, same⟩ | ⟨further, rfl, same⟩ := split
      · cases same
        rw [List.flatMap_nil, List.append_nil, flatMap_text_spansFrom, flatMap_slice_segments]
        exact ⟨isGap, covers_firstCut found⟩
      · -- What was taken up stands before the spans of the rest.
        have stands := stands_spansFrom (before ++ gap ++ (firstCut c after).slice) []
          (firstCut c after).rest .nil (by rwa [List.append_nil])
        simpa [Span.text] using stands
  termination_by text => text.length
  decreasing_by all_goals exact Nat.lt_succ_of_le (length_rest_firstCut c after)

/-! ## The whole source -/

/-- No token before the end of the input is one, and each has something written for it. -/
theorem token_of_mem_foundFrom {line : Nat} {text : List Char} {token : Token}
    (member : .token token ∈ foundFrom line (segments text)) :
    token.kind ≠ .endOfInput ∧ token.lexeme ≠ "" := by
  obtain ⟨c, after, start, found⟩ := firstCut_of_mem_foundFrom member
  have described := (firstCut_cases c after).describes
  have piece : (firstCut c after).piece = .token token.kind := Segment.piece_of_token found
  rw [piece] at described
  refine ⟨described.1, fun empty => slice_ne_nil c after ?_⟩
  have spelled : (firstCut c after).slice = token.lexeme.toList := described.2
  rw [spelled, empty]
  rfl

/-- The items of a source text are tied to slices of it, one after the other, with gaps between
them; the end of the input comes last, and nothing comes after it. -/
theorem partition_source (source : String) :
    (spans source).map Span.item = items source ∧
    (spans source).flatMap Span.text = source.toList ∧
    (∀ front span back, spans source = front ++ span :: back →
      span.Stands (front.flatMap Span.text) (back.flatMap Span.text)) ∧
    (∃ front last, items source = front ++ [.token last] ∧ last.kind = .endOfInput ∧
      last.lexeme = "" ∧
      ∀ token, .token token ∈ front → token.kind ≠ .endOfInput ∧ token.lexeme ≠ "") ∧
    ∀ count, (Scanner.ofSource source).answer count = (items source)[count]? := by
  refine ⟨map_item_spans source, flatMap_text_spans source, fun front span back split => ?_,
    ⟨_, _, itemsFrom_eq, rfl, rfl, fun token => token_of_mem_foundFrom⟩, fun count => ?_⟩
  · exact stands_spansFrom [] [] source.toList .nil split
  · rw [Scanner.answer_eq, Scanner.items_ofSource]

/-- A stray character, a text literal of two lines, a comment, and another literal that is never
closed. -/
theorem partition_source_unclosed :
    let source := "é \"a\nb\"//c\n\"z"
    let front : List Span := [⟨[], ['é'], .error ⟨.unexpectedCharacter 'é', 1⟩⟩,
      ⟨[' '], ['"', 'a', '\n', 'b', '"'], .token ⟨.text "a\nb", 2⟩⟩]
    let span : Span := ⟨['/', '/', 'c', '\n'], ['"', 'z'], .error ⟨.unterminatedText, 3⟩⟩
    let back : List Span := [⟨[], [], .token ⟨.endOfInput, 3⟩⟩]
    spans source = front ++ span :: back ∧
      span.Stands (front.flatMap Span.text) (back.flatMap Span.text) := by
  intro source front span back
  have split : spans source = front ++ span :: back := by decide +kernel
  obtain ⟨_, _, stands, _⟩ := partition_source source
  exact ⟨split, stands front span back split⟩

end Lox.Scan
