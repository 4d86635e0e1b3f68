import Lox.Number.Rounding
import Lox.Token

/-!
# Scanning

Source text is cut into pieces from the front, each as long as it can be: blanks and comments,
tokens, and errors, which do not stop the scan. Every piece keeps its slice of the text, so the
slices together are the text. Where a piece stands is counted afterwards, by the newlines in the
slices.
-/

namespace Lox

/-! ## Errors -/

inductive LexicalProblem where
  | unexpectedCharacter (character : Char)
  | unterminatedText
  deriving DecidableEq, Repr

def LexicalProblem.message : LexicalProblem → String
  | unexpectedCharacter character => "Unexpected character: " ++ String.singleton character
  | unterminatedText => "Unterminated string."

/-- A problem, and the line that its first character stands on. -/
structure LexicalError where
  problem : LexicalProblem
  line : Nat
  deriving DecidableEq, Repr

namespace Scan

/-! ## Pieces -/

/-- What a slice of the source is. -/
inductive Piece where
  /-- White space or a comment. -/
  | blank
  | token (kind : Token.Kind)
  | error (problem : LexicalProblem)
  deriving DecidableEq, Repr

/-- The first piece of some text, its slice, and the text after it. -/
structure Cut where
  piece : Piece
  slice : List Char
  rest : List Char

/-- Blanks separate tokens and mean nothing. -/
def isBlank (c : Char) : Bool := c = ' ' || c = '\t' || c = '\r' || c = '\n'

/-- The characters that a word can start with; a digit can stand further on. -/
def startsWord (c : Char) : Bool := c.isAlpha || c = '_'

def continuesWord (c : Char) : Bool := c.isAlphanum || c = '_'

/-- A comment, up to the end of its line. -/
def comment (text : List Char) : Cut :=
  ⟨.blank, text.takeWhile (· ≠ '\n'), text.dropWhile (· ≠ '\n')⟩

/-- A text literal, given what follows its opening quote. It may run over several lines, and there
is no way to write a quote in it. -/
def textLiteral (after : List Char) : Cut :=
  let contents := after.takeWhile (· ≠ '"')
  match after.dropWhile (· ≠ '"') with
  | [] => ⟨.error .unterminatedText, '"' :: contents, []⟩
  | quote :: rest =>
    ⟨.token (.text (String.ofList contents)), '"' :: contents ++ [quote], rest⟩

/-- A number literal: digits, and a fraction where a digit follows the point. -/
def numberLiteral (text : List Char) : Cut :=
  let whole := text.takeWhile Char.isDigit
  let rest := text.dropWhile Char.isDigit
  let fractionAfter (point : List Char) (fraction : List Char) (rest : List Char) : Cut :=
    let slice := whole ++ point ++ fraction
    let value := Number.ofDecimal (Nat.ofDigitChars 10 (whole ++ fraction) 0) fraction.length
    ⟨.token (.number (String.ofList slice) value), slice, rest⟩
  match rest with
  | '.' :: digit :: more =>
    if digit.isDigit then
      fractionAfter ['.'] ((digit :: more).takeWhile Char.isDigit)
        ((digit :: more).dropWhile Char.isDigit)
    else fractionAfter [] [] rest
  | _ => fractionAfter [] [] rest

/-- A word: a keyword if it is reserved, else an identifier. -/
def word (text : List Char) : Cut :=
  let slice := text.takeWhile continuesWord
  let lexeme := String.ofList slice
  let kind : Token.Kind :=
    match Keyword.ofWord? lexeme with
    | some keyword => .keyword keyword
    | none => .identifier lexeme
  ⟨.token kind, slice, text.dropWhile continuesWord⟩

/-- A symbol, with the equals sign after it where the two make one symbol. -/
def symbol (c : Char) (first : Symbol) (after : List Char) : Cut :=
  match after, first.withEqual? with
  | '=' :: rest, some longer => ⟨.token (.symbol longer), [c, '='], rest⟩
  | _, _ => ⟨.token (.symbol first), [c], after⟩

/-- The first piece of the text `c :: after`. -/
def firstCut (c : Char) (after : List Char) : Cut :=
  if isBlank c then ⟨.blank, [c], after⟩
  else if c = '/' ∧ after.head? = some '/' then comment (c :: after)
  else if c = '"' then textLiteral after
  else if c.isDigit then numberLiteral (c :: after)
  else if startsWord c then word (c :: after)
  else
    match Symbol.ofChar? c with
    | some first => symbol c first after
    | none => ⟨.error (.unexpectedCharacter c), [c], after⟩

/-! ## Every piece takes something away -/

theorem length_dropWhile_cons {α : Type} {p : α → Bool} {a : α} {l : List α} (holds : p a = true) :
    ((a :: l).dropWhile p).length ≤ l.length := by
  rw [List.dropWhile_cons_of_pos holds]
  exact (List.dropWhile_suffix p).length_le

theorem length_rest_textLiteral (after : List Char) :
    (textLiteral after).rest.length ≤ after.length := by
  have shorter := (List.dropWhile_suffix (l := after) (· ≠ '"')).length_le
  unfold textLiteral
  split
  · simp
  · next dropped =>
      rw [dropped] at shorter
      simp only [List.length_cons] at shorter
      exact Nat.le_of_succ_le shorter

theorem length_rest_numberLiteral {c : Char} {after : List Char} (digit : c.isDigit = true) :
    (numberLiteral (c :: after)).rest.length ≤ after.length := by
  have whole := length_dropWhile_cons (l := after) digit
  unfold numberLiteral
  simp only
  split
  · next next more rest =>
      rw [rest] at whole
      simp only [List.length_cons] at whole
      split
      · next isDigit =>
          have fraction := length_dropWhile_cons (l := more) isDigit
          simp only
          omega
      · simp only [rest, List.length_cons]
        exact whole
  · exact whole

theorem length_rest_symbol (c : Char) (first : Symbol) (after : List Char) :
    (symbol c first after).rest.length ≤ after.length := by
  unfold symbol
  split <;> simp

/-- The text after the first piece is no longer than the text after its first character. -/
theorem length_rest_firstCut (c : Char) (after : List Char) :
    (firstCut c after).rest.length ≤ after.length := by
  unfold firstCut
  split
  · exact Nat.le_refl _
  split
  · next slashes =>
      have notNewline : decide (c ≠ '\n') = true := by rw [slashes.1]; rfl
      exact length_dropWhile_cons (p := (· ≠ '\n')) (l := after) notNewline
  split
  · exact length_rest_textLiteral after
  split
  · next digit => exact length_rest_numberLiteral digit
  split
  · next letter =>
      refine length_dropWhile_cons (l := after) ?_
      simp only [startsWord, Bool.or_eq_true, decide_eq_true_eq] at letter
      simp only [continuesWord, Char.isAlphanum, Bool.or_eq_true, decide_eq_true_eq]
      rcases letter with alpha | underscore
      · exact .inl (.inl alpha)
      · exact .inr underscore
  split
  · exact length_rest_symbol c _ after
  · exact Nat.le_refl _

/-! ## Nothing is lost -/

theorem slice_append_rest_textLiteral (after : List Char) :
    (textLiteral after).slice ++ (textLiteral after).rest = '"' :: after := by
  have whole := List.takeWhile_append_dropWhile (p := (· ≠ '"')) (l := after)
  unfold textLiteral
  split
  · next nothing =>
      rw [nothing] at whole
      simpa using whole
  · next quote rest dropped =>
      rw [dropped] at whole
      simpa using whole

theorem slice_append_rest_numberLiteral (text : List Char) :
    (numberLiteral text).slice ++ (numberLiteral text).rest = text := by
  have whole := List.takeWhile_append_dropWhile (p := Char.isDigit) (l := text)
  unfold numberLiteral
  simp only
  split
  · next digit more dropped =>
      split
      · have fraction := List.takeWhile_append_dropWhile (p := Char.isDigit) (l := digit :: more)
        rw [dropped] at whole
        simpa [fraction] using whole
      · simpa [dropped] using whole
  · simp

theorem slice_append_rest_symbol (c : Char) (first : Symbol) (after : List Char) :
    (symbol c first after).slice ++ (symbol c first after).rest = c :: after := by
  unfold symbol
  split <;> simp

/-- The slice of the first piece and the text after it are the text. -/
theorem slice_append_rest_firstCut (c : Char) (after : List Char) :
    (firstCut c after).slice ++ (firstCut c after).rest = c :: after := by
  unfold firstCut
  split
  · rfl
  split
  · exact List.takeWhile_append_dropWhile
  split
  · next quote => rw [quote]; exact slice_append_rest_textLiteral after
  split
  · exact slice_append_rest_numberLiteral (c :: after)
  split
  · exact List.takeWhile_append_dropWhile
  split
  · exact slice_append_rest_symbol c _ after
  · rfl

/-! ## Segments -/

/-- A piece with its slice of the source. -/
structure Segment where
  piece : Piece
  slice : List Char
  deriving DecidableEq, Repr

/-- The segments of some text, after those that are done; the latest one of these comes first. -/
def segmentsAfter (done : List Segment) : List Char → List Segment
  | [] => done.reverse
  | c :: after =>
    let cut := firstCut c after
    segmentsAfter (⟨cut.piece, cut.slice⟩ :: done) cut.rest
  termination_by text => text.length
  decreasing_by exact Nat.lt_succ_of_le (length_rest_firstCut c after)

/-- The text cut into its segments. -/
def segments (text : List Char) : List Segment := segmentsAfter [] text

/-- What is done comes first, in order. -/
theorem segmentsAfter_eq (done : List Segment) :
    (text : List Char) → segmentsAfter done text = done.reverse ++ segments text
  | [] => by simp [segments, segmentsAfter]
  | c :: after => by
    rw [segments, segmentsAfter, segmentsAfter, segmentsAfter_eq (_ :: done), segmentsAfter_eq [_]]
    simp
  termination_by text => text.length
  decreasing_by all_goals exact Nat.lt_succ_of_le (length_rest_firstCut c after)

theorem segments_nil : segments [] = [] := by
  simp [segments, segmentsAfter]

/-- The segments of a text are its first piece and the segments of the text after it. -/
theorem segments_cons (c : Char) (after : List Char) :
    segments (c :: after) =
      ⟨(firstCut c after).piece, (firstCut c after).slice⟩ :: segments (firstCut c after).rest := by
  rw [segments, segmentsAfter, segmentsAfter_eq]
  rfl

/-- The slices of the segments, joined, are the text. -/
theorem flatMap_slice_segments : (text : List Char) → (segments text).flatMap Segment.slice = text
  | [] => by simp [segments_nil]
  | c :: after => by
    rw [segments_cons, List.flatMap_cons, flatMap_slice_segments (firstCut c after).rest]
    exact slice_append_rest_firstCut c after
  termination_by text => text.length
  decreasing_by exact Nat.lt_succ_of_le (length_rest_firstCut c after)

/-! ## Items -/

/-- What the scan yields: a token, or a lexical error between tokens. -/
inductive Item where
  | token (token : Token)
  | error (error : LexicalError)
  deriving DecidableEq, Repr

/-- The items that segments yield from a given line on, and the end of the input after them. A
token is placed on the line it ends on, an error on the line it starts on. -/
def itemsFrom (line : Nat) : List Segment → List Item
  | [] => [.token ⟨.endOfInput, line⟩]
  | segment :: rest =>
    let next := line + segment.slice.count '\n'
    match segment.piece with
    | .blank => itemsFrom next rest
    | .token kind => .token ⟨kind, next⟩ :: itemsFrom next rest
    | .error problem => .error ⟨problem, line⟩ :: itemsFrom next rest

/-- The items of a source text, in order. The last one is the end of the input. -/
def items (source : String) : List Item := itemsFrom 1 (segments source.toList)

def Item.token? : Item → Option Token
  | .token t => some t
  | .error _ => none

def Item.error? : Item → Option LexicalError
  | .token _ => none
  | .error e => some e

/-- The tokens of a source text, without the parts that failed to scan. -/
def tokens (source : String) : List Token := (items source).filterMap Item.token?

/-- The lexical errors of a source text. -/
def errors (source : String) : List LexicalError := (items source).filterMap Item.error?

end Scan

end Lox
