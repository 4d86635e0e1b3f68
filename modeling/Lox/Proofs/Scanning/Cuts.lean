import Lox.Token.Scan
import Mathlib.Data.List.TakeWhile

/-!
# What the first piece of a text is

A piece is described by its slice and by what follows it. A blank character behind a text leaves
its first piece as it is, unless that is a text literal which is still open there, or a comment,
which only a newline ends.
-/

namespace Lox

/-! ## How symbols and keywords are spelled -/

theorem Symbol.toList_lexeme_ofChar {c : Char} {symbol : Symbol} (found : ofChar? c = some symbol) :
    symbol.lexeme.toList = [c] := by
  unfold ofChar? at found
  split at found <;> cases found <;> rfl

theorem Symbol.toList_lexeme_withEqual {symbol longer : Symbol}
    (found : symbol.withEqual? = some longer) :
    longer.lexeme.toList = symbol.lexeme.toList ++ ['='] := by
  unfold withEqual? at found
  split at found <;> cases found <;> rfl

theorem Keyword.lexeme_ofWord {word : String} {keyword : Keyword}
    (found : ofWord? word = some keyword) : keyword.lexeme = word := by
  have same := List.find?_some found
  exact beq_iff_eq.mp same

namespace Scan

theorem slice_ne_nil (c : Char) (after : List Char) : (firstCut c after).slice ≠ [] := by
  intro empty
  have whole := congrArg List.length (slice_append_rest_firstCut c after)
  have shorter := length_rest_firstCut c after
  rw [empty, List.nil_append, List.length_cons] at whole
  omega

/-! ## The cases of a first piece -/

/-- The ways in which the first piece of the text `c :: after` is cut off. -/
inductive FirstCut (c : Char) (after : List Char) : Cut → Prop where
  | blank (blank : isBlank c = true) : FirstCut c after ⟨.blank, [c], after⟩
  | comment (slash : c = '/') (another : after.head? = some '/') :
    FirstCut c after (comment (c :: after))
  | text (quote : c = '"') : FirstCut c after (textLiteral after)
  | number (digit : c.isDigit = true) : FirstCut c after (numberLiteral (c :: after))
  | word (starts : startsWord c = true) : FirstCut c after (word (c :: after))
  | symbol {first : Symbol} (found : Symbol.ofChar? c = some first) :
    FirstCut c after (symbol c first after)
  | stray : FirstCut c after ⟨.error (.unexpectedCharacter c), [c], after⟩

theorem firstCut_cases (c : Char) (after : List Char) : FirstCut c after (firstCut c after) := by
  unfold firstCut
  split
  · next blank => exact .blank blank
  split
  · next slashes => exact .comment slashes.1 slashes.2
  split
  · next quote => exact .text quote
  split
  · next digit => exact .number digit
  split
  · next starts => exact .word starts
  split
  · next found => exact .symbol found
  · exact .stray

/-! ## Pieces by their slices -/

/-- Two slashes and what follows them on their line. -/
structure IsComment (slice following : List Char) : Prop where
  slashes : ['/', '/'] <+: slice
  line : '\n' ∉ slice
  ended : following = [] ∨ ∃ more, following = '\n' :: more

/-- What a piece says of its slice and of the text that follows it. -/
def Piece.Describes (slice following : List Char) : Piece → Prop
  | .blank => (∃ c, isBlank c = true ∧ slice = [c]) ∨ IsComment slice following
  | .token kind => kind ≠ .endOfInput ∧ slice = kind.lexeme.toList
  | .error (.unexpectedCharacter c) => slice = [c]
  | .error .unterminatedText =>
    following = [] ∧ ∃ contents, slice = '"' :: contents ∧ '"' ∉ contents

variable {c stop : Char} {after more : List Char}

/-- What is skipped up to a character stops at that character. -/
theorem eq_of_dropWhile_ne {text : List Char} (left : text.dropWhile (· ≠ stop) = c :: more) :
    c = stop := by
  have some : text.dropWhile (· ≠ stop) ≠ [] := left ▸ List.cons_ne_nil _ _
  have stops := List.head_dropWhile_not (· ≠ stop) some
  simp only [left, List.head_cons, decide_eq_false_iff_not, not_not] at stops
  exact stops

theorem isComment_comment (slashes : after.head? = some '/') :
    IsComment (comment ('/' :: after)).slice (comment ('/' :: after)).rest where
  slashes := by
    obtain ⟨more, rfl⟩ := List.head?_eq_some_iff.mp slashes
    exact ⟨more.takeWhile (· ≠ '\n'), by simp [comment]⟩
  line inside := by simpa using List.mem_takeWhile_imp inside
  ended := by
    unfold comment
    dsimp only
    cases left : ('/' :: after).dropWhile (· ≠ '\n') with
    | nil => exact .inl rfl
    | cons first more =>
      exact .inr ⟨more, by rw [eq_of_dropWhile_ne left]⟩

theorem describes_textLiteral (after : List Char) :
    (textLiteral after).piece.Describes (textLiteral after).slice (textLiteral after).rest := by
  have noQuote : '"' ∉ after.takeWhile (· ≠ '"') := fun inside => by
    simpa using List.mem_takeWhile_imp inside
  unfold textLiteral
  cases left : after.dropWhile (· ≠ '"') with
  | nil => exact ⟨rfl, _, rfl, noQuote⟩
  | cons quote rest =>
    refine ⟨by simp, ?_⟩
    simp [Token.Kind.lexeme, eq_of_dropWhile_ne left]

theorem describes_numberLiteral (text : List Char) :
    (numberLiteral text).piece.Describes (numberLiteral text).slice (numberLiteral text).rest := by
  have spelled : ∀ (slice : List Char) (value : Number) (rest : List Char),
      (Piece.token (.number (String.ofList slice) value)).Describes slice rest :=
    fun slice value rest => ⟨by simp, by simp [Token.Kind.lexeme]⟩
  unfold numberLiteral
  dsimp only
  split
  · split
    · exact spelled _ _ _
    · exact spelled _ _ _
  · exact spelled _ _ _

theorem describes_word (text : List Char) :
    (word text).piece.Describes (word text).slice (word text).rest := by
  unfold word
  dsimp only
  split
  · next keyword found =>
    exact ⟨by simp, by simp [Token.Kind.lexeme, Keyword.lexeme_ofWord found]⟩
  · exact ⟨by simp, by simp [Token.Kind.lexeme]⟩

theorem describes_symbol {first : Symbol} (found : Symbol.ofChar? c = some first)
    (after : List Char) :
    (symbol c first after).piece.Describes (symbol c first after).slice
      (symbol c first after).rest := by
  have single := Symbol.toList_lexeme_ofChar found
  unfold symbol
  split
  · next longer becomes =>
    refine ⟨by simp, ?_⟩
    simp [Token.Kind.lexeme, Symbol.toList_lexeme_withEqual becomes, single]
  · exact ⟨by simp, single.symm⟩

/-- The first piece of a text is what its slice and the rest of the text make it. -/
theorem FirstCut.describes {cut : Cut} (first : FirstCut c after cut) :
    cut.piece.Describes cut.slice cut.rest := by
  cases first with
  | blank blank => exact .inl ⟨c, blank, rfl⟩
  | comment slash another =>
    subst slash
    exact .inr (isComment_comment another)
  | text => exact describes_textLiteral after
  | number => exact describes_numberLiteral (c :: after)
  | word => exact describes_word (c :: after)
  | symbol found => exact describes_symbol found after
  | stray => rfl

/-! ## Newlines

Only a text literal runs over several lines. -/

theorem newline_not_mem_number (text : List Char) : '\n' ∉ (numberLiteral text).slice := by
  have digits : ∀ part : List Char, '\n' ∉ part.takeWhile Char.isDigit := fun part inside => by
    simpa using List.mem_takeWhile_imp inside
  unfold numberLiteral
  dsimp only
  split
  · split
    · simp [digits]
    · simp [digits]
  · simp [digits]

theorem newline_not_mem_word (text : List Char) : '\n' ∉ (word text).slice := by
  intro inside
  have continues := List.mem_takeWhile_imp inside
  exact absurd continues (by decide)

theorem newline_not_mem_symbol {first : Symbol} (found : Symbol.ofChar? c = some first)
    (after : List Char) : '\n' ∉ (symbol c first after).slice := by
  have other : c ≠ '\n' := by
    rintro rfl
    cases found
  unfold symbol
  split <;> simp [other.symm]

/-- A token that runs over several lines is a text literal. -/
theorem FirstCut.newline_not_mem {cut : Cut} {kind : Token.Kind} (first : FirstCut c after cut)
    (token : cut.piece = .token kind) (plain : ∀ contents, kind ≠ .text contents) :
    '\n' ∉ cut.slice := by
  cases first with
  | blank | comment | stray => cases token
  | text =>
    unfold textLiteral at token
    dsimp only at token
    split at token <;> cases token
    exact absurd rfl (plain _)
  | number => exact newline_not_mem_number (c :: after)
  | word => exact newline_not_mem_word (c :: after)
  | symbol found => exact newline_not_mem_symbol found after

/-- Any other piece starts with a newline if there is one in it. -/
theorem FirstCut.newline_not_mem_of_ne {cut : Cut} (first : FirstCut c after cut)
    (newline : c ≠ '\n') (noQuote : c ≠ '"') : '\n' ∉ cut.slice := by
  have single : '\n' ∉ [c] := fun inside => newline (List.mem_singleton.mp inside).symm
  cases first with
  | blank | stray => exact single
  | comment slash another =>
    subst slash
    exact (isComment_comment another).line
  | text quote => exact absurd quote noQuote
  | number => exact newline_not_mem_number (c :: after)
  | word => exact newline_not_mem_word (c :: after)
  | symbol found => exact newline_not_mem_symbol found after

/-! ## More text behind a blank -/

theorem takeWhile_append_stop {p : Char → Bool} (stops : p stop = false) (text more : List Char) :
    (text ++ stop :: more).takeWhile p = text.takeWhile p := by
  induction text with
  | nil => simp [stops]
  | cons c after ih => simp [List.takeWhile_cons, ih]

theorem dropWhile_append_stop {p : Char → Bool} (stops : p stop = false) (text more : List Char) :
    (text ++ stop :: more).dropWhile p = text.dropWhile p ++ stop :: more := by
  induction text with
  | nil => simp [stops]
  | cons c after ih =>
    simp only [List.cons_append, List.dropWhile_cons, ih]
    split <;> rfl

theorem isBlank_cases (blank : isBlank stop = true) :
    stop = ' ' ∨ stop = '\t' ∨ stop = '\r' ∨ stop = '\n' := by
  simpa [isBlank, or_assoc] using blank

/-- The cut of a text that goes on. -/
def Cut.extend (cut : Cut) (more : List Char) : Cut := ⟨cut.piece, cut.slice, cut.rest ++ more⟩

theorem extend_comment (text more : List Char) :
    comment (text ++ '\n' :: more) = (comment text).extend ('\n' :: more) := by
  have stops : decide ('\n' ≠ '\n') = false := by decide
  unfold comment Cut.extend
  rw [takeWhile_append_stop stops, dropWhile_append_stop stops]

theorem extend_textLiteral (more : List Char)
    (closed : (textLiteral after).piece ≠ .error .unterminatedText) :
    textLiteral (after ++ more) = (textLiteral after).extend more := by
  unfold textLiteral at closed ⊢
  rw [List.takeWhile_append, List.dropWhile_append]
  cases left : after.dropWhile (· ≠ '"') with
  | nil =>
    rw [left] at closed
    exact absurd rfl closed
  | cons quote rest =>
    -- There is a quote in the shorter text, so the search does not come to what follows it.
    have whole := List.takeWhile_append_dropWhile (p := (· ≠ '"')) (l := after)
    have shorter : (after.takeWhile (· ≠ '"')).length ≠ after.length := by
      rw [left] at whole
      have := congrArg List.length whole
      simp only [List.length_append, List.length_cons] at this
      omega
    rw [if_neg shorter, if_neg (by simp)]
    rfl

theorem extend_numberLiteral (blank : isBlank stop = true) (text more : List Char) :
    numberLiteral (text ++ stop :: more) = (numberLiteral text).extend (stop :: more) := by
  have notDigit : stop.isDigit = false := by
    obtain rfl | rfl | rfl | rfl := isBlank_cases blank <;> rfl
  have notPoint : stop ≠ '.' := by
    rintro rfl
    cases blank
  unfold numberLiteral
  rw [takeWhile_append_stop notDigit, dropWhile_append_stop notDigit]
  cases text.dropWhile Char.isDigit with
  | nil => simp [Cut.extend, notPoint]
  | cons point rest =>
    by_cases isPoint : point = '.'
    · subst isPoint
      -- The fraction stops at the blank, and a point right before it stays behind.
      cases rest with
      | nil => simp [Cut.extend, notDigit]
      | cons digit rest =>
        have whole := takeWhile_append_stop notDigit (digit :: rest) more
        have left := dropWhile_append_stop notDigit (digit :: rest) more
        rw [List.cons_append] at whole left
        simp only [List.cons_append, whole, left]
        split <;> rfl
    · simp [Cut.extend, isPoint]

theorem extend_word (blank : isBlank stop = true) (text more : List Char) :
    word (text ++ stop :: more) = (word text).extend (stop :: more) := by
  have stops : continuesWord stop = false := by
    obtain rfl | rfl | rfl | rfl := isBlank_cases blank <;> rfl
  unfold word Cut.extend
  rw [takeWhile_append_stop stops, dropWhile_append_stop stops]

theorem extend_symbol (blank : isBlank stop = true) (c : Char) (first : Symbol)
    (after more : List Char) :
    symbol c first (after ++ stop :: more) = (symbol c first after).extend (stop :: more) := by
  have notEqual : stop ≠ '=' := by
    rintro rfl
    cases blank
  unfold symbol
  cases after with
  | nil => simp [Cut.extend, notEqual]
  | cons equal rest =>
    by_cases isEqual : equal = '='
    · subst isEqual
      cases first.withEqual? <;> rfl
    · simp [Cut.extend, isEqual]

/-- The first piece of a text is its first piece also where a blank and more text follow. -/
theorem extend_firstCut (blank : isBlank stop = true) (c : Char) (after more : List Char)
    (closed : (firstCut c after).piece ≠ .error .unterminatedText)
    (ends : stop = '\n' ∨ (firstCut c after).piece ≠ .blank) :
    firstCut c (after ++ stop :: more) = (firstCut c after).extend (stop :: more) := by
  have sameHead : (after ++ stop :: more).head? = some '/' ↔ after.head? = some '/' := by
    cases after with
    | nil =>
      have notSlash : stop ≠ '/' := by
        rintro rfl
        cases blank
      simp [notSlash]
    | cons next rest => simp
  unfold firstCut at closed ends ⊢
  simp only [sameHead]
  split_ifs at closed ends ⊢ with blankFound slashes
  · rfl
  · obtain rfl : stop = '\n' := by simpa [comment] using ends
    exact extend_comment (c :: after) more
  · exact extend_textLiteral _ closed
  · exact extend_numberLiteral blank (c :: after) more
  · exact extend_word blank (c :: after) more
  · cases Symbol.ofChar? c with
    | some first => exact extend_symbol blank c first after more
    | none => rfl

end Scan

end Lox
