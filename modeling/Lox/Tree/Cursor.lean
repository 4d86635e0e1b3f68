import Lox.Tree.SyntaxError

/-!
# Reading tokens

The state of a parse is a cursor: the tokens that are left before the end of the input, and the
errors found so far. A reader takes tokens off the front of the cursor and gives a result, fails
with an error, or gives up for want of fuel, which is a third outcome of its own.
-/

namespace Lox

/-- Where a parse stands. -/
structure Cursor where
  /-- The tokens left, the end of the input not among them. -/
  rest : List Token
  /-- The end of the input. -/
  stop : Token
  /-- The errors so far, the latest first. -/
  errors : List SyntaxError

namespace Cursor

/-- The cursor at the front of some tokens, which it takes up to the first end of input. -/
def ofTokens (tokens : List Token) : Cursor :=
  let rest := tokens.takeWhile (·.kind ≠ .endOfInput)
  let stop := (tokens.find? (·.kind = .endOfInput)).getD
    ⟨.endOfInput, (tokens.getLast?.map (·.line)).getD 1⟩
  ⟨rest, stop, []⟩

/-- The token at the front. -/
def next (cursor : Cursor) : Token := cursor.rest.head?.getD cursor.stop

/-- The cursor past the token at the front. The end of the input is never passed. -/
def advance (cursor : Cursor) : Cursor := ⟨cursor.rest.tail, cursor.stop, cursor.errors⟩

def record (error : SyntaxError) (cursor : Cursor) : Cursor :=
  ⟨cursor.rest, cursor.stop, error :: cursor.errors⟩

end Cursor

/-! ## Readers -/

/-- How a reader ends. -/
inductive Parsed (α : Type) where
  | done (value : α) (cursor : Cursor)
  | failed (error : SyntaxError) (cursor : Cursor)
  | outOfFuel

/-- A reader of tokens. -/
def Reader (α : Type) := Cursor → Parsed α

namespace Reader

variable {α β : Type}

@[always_inline, inline]
protected def pure (value : α) : Reader α := fun cursor => .done value cursor

@[always_inline, inline]
protected def bind (reader : Reader α) (continuation : α → Reader β) : Reader β := fun cursor =>
  match reader cursor with
  | .done value after => continuation value after
  | .failed error after => .failed error after
  | .outOfFuel => .outOfFuel

@[always_inline]
instance : Monad Reader where
  pure := Reader.pure
  bind := Reader.bind

section

variable {reader : Reader α} {continuation : α → Reader β} {cursor after : Cursor}

theorem bind_of_done {value : α} (ran : reader cursor = .done value after) :
    (reader >>= continuation) cursor = continuation value after := by
  change Reader.bind reader continuation cursor = _
  simp only [Reader.bind, ran]

theorem bind_of_failed {error : SyntaxError} (ran : reader cursor = .failed error after) :
    (reader >>= continuation) cursor = .failed error after := by
  change Reader.bind reader continuation cursor = _
  simp only [Reader.bind, ran]

theorem bind_of_outOfFuel (ran : reader cursor = .outOfFuel) :
    (reader >>= continuation) cursor = .outOfFuel := by
  change Reader.bind reader continuation cursor = _
  simp only [Reader.bind, ran]

/-- Where two readers give a result, both do. -/
theorem exists_of_bind_done {result : β}
    (ran : (reader >>= continuation) cursor = .done result after) :
    ∃ value middle, reader cursor = .done value middle ∧
      continuation value middle = .done result after := by
  cases outcome : reader cursor with
  | done value middle => exact ⟨value, middle, rfl, (bind_of_done outcome).symm.trans ran⟩
  | failed error middle => cases (bind_of_failed outcome).symm.trans ran
  | outOfFuel => cases (bind_of_outOfFuel outcome).symm.trans ran

end

def outOfFuel : Reader α := fun _ => .outOfFuel

/-- Fails at a given token. -/
def failAt (problem : SyntaxProblem) (token : Token) : Reader α :=
  fun cursor => .failed ⟨problem, token⟩ cursor

/-- Fails at the token at the front. -/
def fail (problem : SyntaxProblem) : Reader α :=
  fun cursor => .failed ⟨problem, cursor.next⟩ cursor

/-- Records a problem at the token at the front and goes on. -/
def record (problem : SyntaxProblem) : Reader Unit :=
  fun cursor => .done () (cursor.record ⟨problem, cursor.next⟩)

/-- The token at the front, which stays there. -/
def next : Reader Token := fun cursor => .done cursor.next cursor

/-- Takes the token at the front. -/
def advance : Reader Token := fun cursor => .done cursor.next cursor.advance

def atEnd : Reader Bool := fun cursor => .done cursor.rest.isEmpty cursor

/-- Whether a symbol is at the front. -/
def nextIs (symbol : Symbol) : Reader Bool :=
  fun cursor => .done (decide (cursor.next.kind = .symbol symbol)) cursor

/-- Takes a symbol if it is at the front. -/
def accept (symbol : Symbol) : Reader Bool := fun cursor =>
  if cursor.next.kind = .symbol symbol then .done true cursor.advance else .done false cursor

/-- Takes a symbol, which has to be at the front. -/
def expect (symbol : Symbol) (place : Place) : Reader Token := fun cursor =>
  if cursor.next.kind = .symbol symbol then .done cursor.next cursor.advance
  else .failed ⟨.expectedSymbol symbol place, cursor.next⟩ cursor

/-- Takes an identifier, which has to be at the front. -/
def identifier (role : NameRole) : Reader Name := fun cursor =>
  match cursor.next.kind with
  | .identifier text => .done ⟨text, cursor.next.line⟩ cursor.advance
  | _ => .failed ⟨.expectedName role, cursor.next⟩ cursor

end Reader

end Lox
