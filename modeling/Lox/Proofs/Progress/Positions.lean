import Lox.Proofs.Grammar.Soundness
import Lox.Proofs.Progress.Tracers

/-!
# The indices of cursors

A cursor has the tokens that are left up to the first end of input, a pointer the index at which they
begin. So long as its index is not beyond the first end of input, a pointer stands where its cursor does:
there is a token at its index, which is the one at the front of the cursor.
-/

namespace Lox

/-! ## Cursors -/

/-- Where the tokens end: the index of the first end of input. -/
def Token.firstEnd (tokens : List Token) : Nat := tokens.findIdx (·.kind = .endOfInput)

/-- The index of the token at the front of the cursor. -/
def Cursor.position (tokens : List Token) (cursor : Cursor) : Nat :=
  Token.firstEnd tokens - cursor.rest.length

namespace Cursor

variable {tokens : List Token} {cursor later : Cursor}

theorem rest_ofTokens (tokens : List Token) :
    (ofTokens tokens).rest = tokens.take (Token.firstEnd tokens) := by
  have same : (fun token : Token => !decide (token.kind ≠ .endOfInput)) =
      fun token => decide (token.kind = .endOfInput) := by
    funext token
    simp
  unfold ofTokens Token.firstEnd
  rw [List.takeWhile_eq_take_findIdx_not, same]

theorem length_rest_ofTokens (tokens : List Token) :
    (ofTokens tokens).rest.length = Token.firstEnd tokens := by
  rw [rest_ofTokens, List.length_take]
  exact Nat.min_eq_left List.findIdx_le_length

theorem position_le (tokens : List Token) (cursor : Cursor) :
    cursor.position tokens ≤ Token.firstEnd tokens := Nat.sub_le _ _

theorem position_le_position (reached : cursor.Reaches later) :
    cursor.position tokens ≤ later.position tokens :=
  Nat.sub_le_sub_left reached.length _

theorem position_advance (reached : (ofTokens tokens).Reaches cursor) (more : cursor.rest ≠ []) :
    cursor.advance.position tokens = cursor.position tokens + 1 := by
  have some := List.length_pos_iff.mpr more
  have fits := reached.length
  rw [length_rest_ofTokens] at fits
  simp only [position, advance, List.length_tail]
  omega

/-- The token at the front is the one that stands there. -/
theorem getElem?_position (ended : ∃ token ∈ tokens, token.kind = .endOfInput)
    (reached : (ofTokens tokens).Reaches cursor) :
    tokens[cursor.position tokens]? = some cursor.next := by
  have left := List.suffix_iff_eq_drop.mp reached.rest
  rw [length_rest_ofTokens, rest_ofTokens] at left
  change cursor.rest = (tokens.take (Token.firstEnd tokens)).drop (cursor.position tokens) at left
  -- What is left ends before the first end of input, and the cursor stops with that token.
  unfold next
  rw [left, List.head?_drop, List.getElem?_take]
  split
  · next before =>
    have within : cursor.position tokens < tokens.length :=
      Nat.lt_of_lt_of_le before List.findIdx_le_length
    rw [List.getElem?_eq_getElem within, Option.getD_some]
  · next after =>
    have atEnd : cursor.position tokens = Token.firstEnd tokens :=
      Nat.le_antisymm (position_le tokens cursor) (Nat.le_of_not_lt after)
    have found : tokens.find? (·.kind = .endOfInput) = tokens[Token.firstEnd tokens]? :=
      List.find?_eq_getElem?_findIdx
    have within : Token.firstEnd tokens < tokens.length :=
      List.findIdx_lt_length_of_exists (by simpa using ended)
    rw [atEnd, Option.getD_none, reached.stop, ofTokens, found, List.getElem?_eq_getElem within,
      Option.getD_some]

end Cursor

/-! ## Pointers -/

namespace Pointer

/-- The cursor that stands at the same token. -/
def cursor (pointer : Pointer) : Cursor :=
  ⟨(Cursor.ofTokens pointer.tokens).rest.drop pointer.current, (Cursor.ofTokens pointer.tokens).stop,
    pointer.errors⟩

/-- The pointer at the token after the one at the front. -/
def succ (pointer : Pointer) : Pointer := { pointer with current := pointer.current + 1 }

/-- The tokens have an end, and the pointer is not beyond the first one. -/
structure InRange (pointer : Pointer) : Prop where
  ended : ∃ token ∈ pointer.tokens, token.kind = .endOfInput
  current : pointer.current ≤ Token.firstEnd pointer.tokens

/-- Reading can have gone from the one pointer to the other. -/
structure Onward (start finish : Pointer) : Prop where
  tokens : finish.tokens = start.tokens
  current : start.current ≤ finish.current
  bound : finish.current ≤ Token.firstEnd start.tokens

namespace Onward

variable {start middle finish : Pointer}

theorem trans (first : start.Onward middle) (second : middle.Onward finish) : start.Onward finish :=
  ⟨second.tokens.trans first.tokens, Nat.le_trans first.current second.current,
    first.tokens ▸ second.bound⟩

theorem inRange (onward : start.Onward finish) (inRange : start.InRange) : finish.InRange :=
  ⟨onward.tokens ▸ inRange.ended, onward.tokens ▸ onward.bound⟩

end Onward

variable {pointer finish : Pointer}

theorem firstEnd_lt (ended : ∃ token ∈ pointer.tokens, token.kind = .endOfInput) :
    Token.firstEnd pointer.tokens < pointer.tokens.length :=
  List.findIdx_lt_length_of_exists (by simpa using ended)

theorem cursor_ends (pointer : Pointer) : pointer.cursor.Ends := Cursor.ofTokens_ends pointer.tokens

theorem reaches_cursor (pointer : Pointer) :
    (Cursor.ofTokens pointer.tokens).Reaches pointer.cursor :=
  ⟨List.drop_suffix _ _, rfl, List.nil_suffix⟩

theorem length_rest (pointer : Pointer) :
    pointer.cursor.rest.length = Token.firstEnd pointer.tokens - pointer.current := by
  rw [cursor, List.length_drop, Cursor.length_rest_ofTokens]

namespace InRange

variable (inRange : pointer.InRange)
include inRange

theorem refl : pointer.Onward pointer := ⟨rfl, Nat.le_refl _, inRange.current⟩

theorem position_cursor : pointer.cursor.position pointer.tokens = pointer.current := by
  rw [Cursor.position, length_rest]
  exact Nat.sub_sub_self inRange.current

theorem getElem?_current : pointer.tokens[pointer.current]? = some pointer.cursor.next := by
  have found := Cursor.getElem?_position inRange.ended pointer.reaches_cursor
  rwa [inRange.position_cursor] at found

theorem exists_previous : ∃ token, pointer.tokens[pointer.current - 1]? = some token := by
  have within := firstEnd_lt inRange.ended
  have below := inRange.current
  exact ⟨_, List.getElem?_eq_getElem (by omega)⟩

theorem rest_eq_nil_iff :
    pointer.cursor.rest = [] ↔ pointer.current = Token.firstEnd pointer.tokens := by
  rw [← List.length_eq_zero_iff, length_rest]
  have := inRange.current
  omega

/-- The end of the input is at the front where no tokens are left, and nowhere else. -/
theorem next_kind_eq_iff : pointer.cursor.next.kind = .endOfInput ↔ pointer.cursor.rest = [] := by
  constructor
  · intro isEnd
    rw [inRange.rest_eq_nil_iff]
    have found := inRange.getElem?_current
    refine Nat.le_antisymm inRange.current (Nat.le_of_not_lt fun before => ?_)
    have other := List.not_of_lt_findIdx before
    obtain ⟨_, there⟩ := List.getElem?_eq_some_iff.mp found
    rw [there, isEnd] at other
    simp at other
  · intro none
    rw [Cursor.next, none]
    exact pointer.cursor_ends

theorem current_lt_firstEnd (more : pointer.cursor.rest ≠ []) :
    pointer.current < Token.firstEnd pointer.tokens :=
  Nat.lt_of_le_of_ne inRange.current (more ∘ inRange.rest_eq_nil_iff.mpr)

theorem onward_succ (more : pointer.cursor.rest ≠ []) : pointer.Onward pointer.succ :=
  ⟨rfl, Nat.le_succ _, inRange.current_lt_firstEnd more⟩

end InRange

theorem cursor_succ (pointer : Pointer) : pointer.succ.cursor = pointer.cursor.advance := by
  simp only [cursor, succ, Cursor.advance, List.tail_drop]

/-- Fewer tokens are left further on. -/
theorem Onward.current_lt (onward : pointer.Onward finish)
    (shorter : finish.cursor.rest.length < pointer.cursor.rest.length) :
    pointer.current < finish.current := by
  rw [length_rest, length_rest, onward.tokens] at shorter
  omega

end Pointer

end Lox
