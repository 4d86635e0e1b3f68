import Lox.Proofs.Scanning.Cuts
import Lox.Proofs.Scanning.Items

/-!
# Tokens written out again

What a token is does not depend on its neighbours: its lexeme alone is cut as that token, and a blank
behind it changes nothing. So the lexemes of a text, joined by spaces, are scanned to the tokens they
are the lexemes of, and nothing that did not scan comes up again.
-/

namespace Lox.Scan

/-! ## A slice on its own -/

/-- The cut of the slice alone. -/
def Cut.alone (cut : Cut) : Cut := ⟨cut.piece, cut.slice, []⟩

variable {c : Char} {after : List Char} {kind : Token.Kind}

theorem exists_slice_eq_cons (c : Char) (after : List Char) :
    ∃ inner, (firstCut c after).slice = c :: inner ∧ after = inner ++ (firstCut c after).rest := by
  have whole := slice_append_rest_firstCut c after
  cases sliced : (firstCut c after).slice with
  | nil => exact absurd sliced (slice_ne_nil c after)
  | cons first inner =>
    rw [sliced, List.cons_append, List.cons.injEq] at whole
    exact ⟨inner, by rw [whole.1], whole.2.symm⟩

theorem textLiteral_alone {inner : List Char} (token : (textLiteral after).piece = .token kind)
    (sliced : (textLiteral after).slice = '"' :: inner) :
    textLiteral inner = (textLiteral after).alone := by
  unfold textLiteral at token sliced ⊢
  cases left : after.dropWhile (· ≠ '"') with
  | nil =>
    rw [left] at token
    cases token
  | cons quote rest =>
    simp only [left, List.cons_append, List.cons.injEq, true_and] at sliced
    obtain rfl := eq_of_dropWhile_ne left
    -- The contents stop at the quote that closes them, also where nothing follows it.
    have stops : decide ('"' ≠ '"') = false := by decide
    rw [← sliced, takeWhile_append_stop stops, dropWhile_append_stop stops, List.takeWhile_idem,
      List.dropWhile_eq_nil_iff.mpr fun _ => List.mem_takeWhile_imp]
    rfl

/-- The kind of a number that is written with these digits before its point and behind it. -/
def numeral (slice whole fraction : List Char) : Token.Kind :=
  .number (String.ofList slice)
    (.ofDecimal (Nat.ofDigitChars 10 (whole ++ fraction) 0) fraction.length)

/-- The ways in which a number is cut off. -/
inductive NumberCut : Cut → Prop where
  | whole {whole rest : List Char} (digits : ∀ c ∈ whole, c.isDigit = true) :
    NumberCut ⟨.token (numeral whole whole []), whole, rest⟩
  | fraction {whole fraction rest : List Char} (digits : ∀ c ∈ whole, c.isDigit = true)
    (nonempty : fraction ≠ []) (more : ∀ c ∈ fraction, c.isDigit = true) :
    NumberCut ⟨.token (numeral (whole ++ '.' :: fraction) whole fraction), whole ++ '.' :: fraction,
      rest⟩

theorem numberLiteral_cases (text : List Char) : NumberCut (numberLiteral text) := by
  have digits : ∀ part : List Char, ∀ c ∈ part.takeWhile Char.isDigit, c.isDigit = true :=
    fun _ _ => List.mem_takeWhile_imp
  have whole : ∀ rest, NumberCut ⟨.token (numeral (text.takeWhile Char.isDigit)
      (text.takeWhile Char.isDigit) []), text.takeWhile Char.isDigit, rest⟩ :=
    fun _ => .whole (digits text)
  unfold numberLiteral
  simp only [List.append_nil, List.append_assoc, List.singleton_append]
  split
  · next digit more _ =>
    split
    · next isDigit =>
      refine .fraction (digits text) ?_ (digits _)
      rw [List.takeWhile_cons_of_pos isDigit]
      exact List.cons_ne_nil _ _
    · simpa [numeral] using whole _
  · simpa [numeral] using whole _

/-- Digits alone are one number. -/
theorem numberLiteral_whole {whole : List Char} (digits : ∀ c ∈ whole, c.isDigit = true) :
    numberLiteral whole = ⟨.token (numeral whole whole []), whole, []⟩ := by
  unfold numberLiteral
  rw [List.takeWhile_eq_self_iff.mpr digits, List.dropWhile_eq_nil_iff.mpr digits]
  simp [numeral]

/-- Digits, a point and a fraction alone are one number. -/
theorem numberLiteral_fraction {whole fraction : List Char} (digits : ∀ c ∈ whole, c.isDigit = true)
    (nonempty : fraction ≠ []) (more : ∀ c ∈ fraction, c.isDigit = true) :
    numberLiteral (whole ++ '.' :: fraction) =
      ⟨.token (numeral (whole ++ '.' :: fraction) whole fraction), whole ++ '.' :: fraction, []⟩ := by
  have point : Char.isDigit '.' = false := rfl
  obtain ⟨digit, rest, rfl⟩ := List.exists_cons_of_ne_nil nonempty
  unfold numberLiteral
  rw [takeWhile_append_stop point, dropWhile_append_stop point,
    List.takeWhile_eq_self_iff.mpr digits, List.dropWhile_eq_nil_iff.mpr digits]
  simp only [List.nil_append, if_pos (more digit (.head _)), List.takeWhile_eq_self_iff.mpr more,
    List.dropWhile_eq_nil_iff.mpr more, List.append_assoc, List.singleton_append]
  rfl

theorem numberLiteral_alone (text : List Char) :
    numberLiteral (numberLiteral text).slice = (numberLiteral text).alone := by
  have first := numberLiteral_cases text
  generalize numberLiteral text = cut at first ⊢
  cases first with
  | whole digits => exact numberLiteral_whole digits
  | fraction digits nonempty more => exact numberLiteral_fraction digits nonempty more

theorem word_alone (text : List Char) : word (word text).slice = (word text).alone := by
  have continued : (text.takeWhile continuesWord).dropWhile continuesWord = [] :=
    List.dropWhile_eq_nil_iff.mpr fun _ => List.mem_takeWhile_imp
  unfold word Cut.alone
  simp only [List.takeWhile_idem, continued]

theorem symbol_alone {first : Symbol} {inner : List Char}
    (sliced : (symbol c first after).slice = c :: inner) :
    symbol c first inner = (symbol c first after).alone := by
  unfold symbol at sliced ⊢
  split at sliced
  · next longer becomes =>
    obtain rfl : ['='] = inner := (List.cons.inj sliced).2
    simp only [becomes]
    rfl
  · obtain rfl : [] = inner := (List.cons.inj sliced).2
    rfl

/-- The slice of a token alone is cut as the same token. -/
theorem firstCut_alone (token : (firstCut c after).piece = .token kind) :
    ∃ inner, (firstCut c after).slice = c :: inner ∧
      firstCut c inner = (firstCut c after).alone := by
  obtain ⟨inner, sliced, split⟩ := exists_slice_eq_cons c after
  refine ⟨inner, sliced, ?_⟩
  have slash (second : inner.head? = some '/') : after.head? = some '/' := by
    obtain ⟨more, rfl⟩ := List.head?_eq_some_iff.mp second
    rw [split]
    rfl
  by_cases blank : isBlank c = true
  · rw [firstCut, if_pos blank] at token
    cases token
  by_cases slashes : c = '/' ∧ after.head? = some '/'
  · rw [firstCut, if_neg blank, if_pos slashes] at token
    cases token
  have apart : ¬(c = '/' ∧ inner.head? = some '/') := fun both => slashes ⟨both.1, slash both.2⟩
  simp only [firstCut, if_neg blank, if_neg slashes, if_neg apart] at token sliced ⊢
  split_ifs at token sliced ⊢ with quote digit starts
  · exact textLiteral_alone token (quote ▸ sliced)
  · rw [← sliced]
    exact numberLiteral_alone _
  · rw [← sliced]
    exact word_alone _
  · cases found : Symbol.ofChar? c with
    | some first =>
      rw [found] at sliced
      exact symbol_alone sliced
    | none =>
      rw [found] at token
      cases token

/-! ## Lexemes joined by spaces -/

/-- Written on its own, the token is one piece of a text. -/
def StandsAlone (kind : Token.Kind) : Prop :=
  ∃ c inner, kind.lexeme.toList = c :: inner ∧ firstCut c inner = ⟨.token kind, c :: inner, []⟩

/-- The segment that a token is cut out as. -/
def Segment.ofKind (kind : Token.Kind) : Segment := ⟨.token kind, kind.lexeme.toList⟩

def Segment.space : Segment := ⟨.blank, [' ']⟩

theorem segments_standsAlone (alone : StandsAlone kind) :
    segments kind.lexeme.toList = [.ofKind kind] := by
  obtain ⟨c, inner, written, cut⟩ := alone
  rw [written, segments_cons, cut, segments_nil, Segment.ofKind, written]

/-- A token with a space and more text behind it is cut off before the space. -/
theorem segments_standsAlone_append (alone : StandsAlone kind) (more : List Char) :
    segments (kind.lexeme.toList ++ ' ' :: more) =
      .ofKind kind :: .space :: segments more := by
  obtain ⟨c, inner, written, cut⟩ := alone
  have spaced := @extend_firstCut ' ' rfl c inner more (by simp [cut]) (.inr (by simp [cut]))
  rw [written, List.cons_append, segments_cons, spaced, cut, Cut.extend, List.nil_append,
    segments_cons, Segment.ofKind, written]
  rfl

/-! ## The tokens of segments -/

def Piece.kind? : Piece → Option Token.Kind
  | .token kind => some kind
  | _ => none

theorem kinds_itemsFrom (line : Nat) (segments : List Segment) :
    ((itemsFrom line segments).filterMap Item.token?).map Token.kind =
      segments.filterMap (·.piece.kind?) ++ [.endOfInput] := by
  induction segments generalizing line with
  | nil => rfl
  | cons segment rest ih =>
    obtain ⟨piece, slice⟩ := segment
    cases piece with
    | token kind => exact congrArg (kind :: ·) (ih _)
    | blank | error problem => exact ih _

theorem errors_itemsFrom_eq_nil {segments : List Segment} (line : Nat)
    (clean : ∀ segment ∈ segments, ∀ problem, segment.piece ≠ .error problem) :
    (itemsFrom line segments).filterMap Item.error? = [] := by
  induction segments generalizing line with
  | nil => rfl
  | cons segment rest ih =>
    rw [List.forall_mem_cons] at clean
    obtain ⟨piece, slice⟩ := segment
    cases piece with
    | error problem => exact absurd rfl (clean.1 problem)
    | blank | token kind => exact ih _ clean.2

/-- Lexemes that are joined by spaces are scanned to their tokens, and there is no error between
them. -/
theorem segments_intercalate (kinds : List Token.Kind) (alone : ∀ kind ∈ kinds, StandsAlone kind) :
    let found := segments ([' '].intercalate (kinds.map (·.lexeme.toList)))
    found.filterMap (·.piece.kind?) = kinds ∧
      ∀ segment ∈ found, ∀ problem, segment.piece ≠ .error problem := by
  induction kinds with
  | nil => simp [segments_nil]
  | cons kind rest ih =>
    rw [List.forall_mem_cons] at alone
    cases rest with
    | nil => simp [segments_standsAlone alone.1, Segment.ofKind, Piece.kind?]
    | cons next rest =>
      have spaced := segments_standsAlone_append alone.1
        ([' '].intercalate ((next :: rest).map (·.lexeme.toList)))
      obtain ⟨same, clean⟩ := ih alone.2
      have joined : [' '].intercalate ((kind :: next :: rest).map (·.lexeme.toList)) =
          kind.lexeme.toList ++
            ' ' :: [' '].intercalate ((next :: rest).map (·.lexeme.toList)) := by
        simp [List.intercalate_cons_cons]
      simp only [joined, spaced]
      exact ⟨congrArg (kind :: ·) same, List.forall_mem_cons.mpr ⟨nofun, List.forall_mem_cons.mpr
        ⟨nofun, clean⟩⟩⟩

/-! ## Source texts -/

/-- The kinds of the tokens of a source text, without the end of the input. -/
def kinds (source : String) : List Token.Kind :=
  (segments source.toList).filterMap (·.piece.kind?)

theorem kinds_tokens (source : String) :
    (tokens source).map Token.kind = kinds source ++ [.endOfInput] :=
  kinds_itemsFrom 1 _

/-- The lexemes of a source text, joined by spaces. -/
def joined (source : String) : String := " ".intercalate ((kinds source).map (·.lexeme))

theorem standsAlone_of_mem_kinds {source : String} (member : kind ∈ kinds source) :
    StandsAlone kind := by
  obtain ⟨segment, among, isToken⟩ := List.mem_filterMap.mp member
  obtain ⟨c, after, rfl⟩ := exists_of_mem_segments source.toList among
  have token : (firstCut c after).piece = .token kind := by
    dsimp only at isToken
    cases piece : (firstCut c after).piece <;> rw [piece] at isToken <;> cases isToken
    rfl
  have described := (firstCut_cases c after).describes
  rw [token] at described
  obtain ⟨inner, sliced, cut⟩ := firstCut_alone token
  exact ⟨c, inner, described.2.symm.trans sliced, by rw [cut, Cut.alone, token, sliced]⟩

/-- No token but the last one of a source text is the end of the input. -/
theorem endOfInput_not_mem_kinds (source : String) : .endOfInput ∉ kinds source := by
  intro member
  obtain ⟨c, inner, written, _⟩ := standsAlone_of_mem_kinds member
  cases written

/-- The lexemes of a text, joined by spaces, are scanned without an error to the tokens of the text:
kinds with their lexemes and their values, and the end of the input after them. -/
theorem rescan_joined (source : String) :
    errors (joined source) = [] ∧
      (tokens (joined source)).map Token.kind = (tokens source).map Token.kind ∧
      (tokens source).map Token.kind = kinds source ++ [.endOfInput] ∧
      .endOfInput ∉ kinds source := by
  have written : (joined source).toList = [' '].intercalate ((kinds source).map (·.lexeme.toList)) := by
    rw [joined, String.toList_intercalate, List.map_map]
    rfl
  obtain ⟨same, clean⟩ := segments_intercalate (kinds source) fun _ => standsAlone_of_mem_kinds
  rw [← written] at same clean
  refine ⟨errors_itemsFrom_eq_nil 1 clean, ?_, kinds_tokens source, endOfInput_not_mem_kinds source⟩
  rw [kinds_tokens, kinds_tokens, kinds, same]

/-- Slashes that made a comment, a quote that made an open literal, and digits that a point would join
are all parted. -/
example : joined "1.5.x/é/\"//\n\"!==//\n\"" = "1.5 . x / / \"//\n\" != =" := by decide +kernel

end Lox.Scan
