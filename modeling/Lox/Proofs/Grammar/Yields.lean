import Lox.Proofs.Grammar.Lines
import Lox.Proofs.Grammar.Written

/-!
# What readers give back

On tokens that all stand on one line a reader `Yields` a value if it gives that value and leaves the
rest, unless it is out of fuel. How much fuel is enough is known for every reader from its contract,
so nothing is counted here.
-/

namespace Lox

/-- The kind of the first token, or the end of the input. -/
def Token.Kind.front (kinds : List Token.Kind) : Token.Kind := kinds.head?.getD .endOfInput

@[simp] theorem Token.Kind.front_nil : front [] = .endOfInput := rfl

@[simp] theorem Token.Kind.front_cons (kind : Token.Kind) (rest : List Token.Kind) :
    front (kind :: rest) = kind := rfl

/-- The cursor before tokens on one line, with no errors so far. -/
def Cursor.onLine (line last : Nat) (kinds : List Token.Kind) : Cursor :=
  ⟨kinds.map (⟨·, line⟩), ⟨.endOfInput, last⟩, []⟩

theorem Cursor.kind_next_onLine (line last : Nat) (kinds : List Token.Kind) :
    (Cursor.onLine line last kinds).next.kind = Token.Kind.front kinds := by
  cases kinds <;> rfl

namespace Reader

variable {α β : Type} {line last : Nat}

def Yields (line last : Nat) (reader : Reader α) (input : List Token.Kind) (value : α)
    (rest : List Token.Kind) : Prop :=
  reader (.onLine line last input) = .outOfFuel ∨
    reader (.onLine line last input) = .done value (.onLine line last rest)

theorem yields_outOfFuel {input rest : List Token.Kind} {value : α} :
    Yields line last outOfFuel input value rest :=
  .inl rfl

theorem yields_pure {value : α} {rest : List Token.Kind} :
    Yields line last (pure value) rest value rest :=
  .inr rfl

theorem yields_bind {reader : Reader α} {continuation : α → Reader β}
    {input middle rest : List Token.Kind} {value : α} {result : β}
    (first : Yields line last reader input value middle)
    (second : Yields line last (continuation value) middle result rest) :
    Yields line last (reader >>= continuation) input result rest := by
  change Yields line last (Reader.bind reader continuation) input result rest
  unfold Yields Reader.bind
  cases first with
  | inl empty =>
    rw [empty]
    exact .inl rfl
  | inr done =>
    rw [done]
    exact second

/-! ## One token -/

variable {input more rest : List Token.Kind} {result : β}

theorem yields_next {continuation : Token → Reader β}
    (further : ∀ token : Token, token.kind = Token.Kind.front input →
      Yields line last (continuation token) input result rest) :
    Yields line last (next >>= continuation) input result rest :=
  further _ (Cursor.kind_next_onLine line last input)

theorem yields_next_cons {kind : Token.Kind} {continuation : Token → Reader β}
    (further : Yields line last (continuation ⟨kind, line⟩) (kind :: more) result rest) :
    Yields line last (next >>= continuation) (kind :: more) result rest :=
  further

theorem yields_advance {kind : Token.Kind} {continuation : Token → Reader β}
    (further : Yields line last (continuation ⟨kind, line⟩) more result rest) :
    Yields line last (advance >>= continuation) (kind :: more) result rest :=
  further

theorem yields_atEnd {continuation : Bool → Reader β}
    (further : Yields line last (continuation input.isEmpty) input result rest) :
    Yields line last (atEnd >>= continuation) input result rest := by
  cases input <;> exact further

theorem yields_nextIs_present {symbol : Symbol} {continuation : Bool → Reader β}
    (further : Yields line last (continuation true) (.symbol symbol :: more) result rest) :
    Yields line last (nextIs symbol >>= continuation) (.symbol symbol :: more) result rest := by
  refine yields_bind (.inr ?_) further
  exact congrArg (Parsed.done · _) (decide_eq_true rfl)

theorem yields_nextIs_absent {symbol : Symbol} {continuation : Bool → Reader β}
    (absent : Token.Kind.front input ≠ .symbol symbol)
    (further : Yields line last (continuation false) input result rest) :
    Yields line last (nextIs symbol >>= continuation) input result rest := by
  refine yields_bind (.inr ?_) further
  rw [← Cursor.kind_next_onLine line last] at absent
  unfold nextIs
  rw [decide_eq_false absent]

theorem yields_accept_present {symbol : Symbol} {continuation : Bool → Reader β}
    (further : Yields line last (continuation true) more result rest) :
    Yields line last (accept symbol >>= continuation) (.symbol symbol :: more) result rest := by
  refine yields_bind (.inr ?_) further
  exact if_pos rfl

theorem yields_accept_absent {symbol : Symbol} {continuation : Bool → Reader β}
    (absent : Token.Kind.front input ≠ .symbol symbol)
    (further : Yields line last (continuation false) input result rest) :
    Yields line last (accept symbol >>= continuation) input result rest := by
  refine yields_bind (.inr ?_) further
  rw [← Cursor.kind_next_onLine line last] at absent
  exact if_neg absent

theorem yields_expect {symbol : Symbol} {place : Place} {continuation : Token → Reader β}
    (further : Yields line last (continuation ⟨.symbol symbol, line⟩) more result rest) :
    Yields line last (expect symbol place >>= continuation) (.symbol symbol :: more) result
      rest := by
  refine yields_bind (.inr ?_) further
  exact if_pos rfl

theorem yields_identifier {role : NameRole} {name : Name} {continuation : Name → Reader β}
    (further : Yields line last (continuation (name.onLine line)) more result rest) :
    Yields line last (identifier role >>= continuation) (name.written :: more) result rest :=
  further

theorem yields_terminator {continuation : Unit → Reader β}
    (further : Yields line last (continuation ()) more result rest) :
    Yields line last (terminator >>= continuation) (.symbol .semicolon :: more) result rest :=
  yields_bind (yields_accept_present yields_pure) further

end Reader

end Lox
