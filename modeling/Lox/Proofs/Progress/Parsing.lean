import Lox.Proofs.Progress.Rules

/-!
# Parsing makes progress

A parse of tokens that end with the end of the input ends too, where the first end of input is. On the way
no token is read beyond that and the index is not moved there, each call of `declaration` returns further
on than it started, and no two of the calls start at the same token.
-/

namespace Lox

/-- A pointer at the first of some tokens. -/
def Pointer.start (tokens : List Token) : Pointer := ⟨tokens, 0, []⟩

theorem Pointer.cursor_start (tokens : List Token) :
    (Pointer.start tokens).cursor = Cursor.ofTokens tokens := rfl

namespace Program

variable {tokens : List Token}

/-- A parse by index ends as the parse does, and where it has been on the way. -/
theorem parse_progresses {last : Token} (ends : tokens.getLast? = some last)
    (isEnd : last.kind = .endOfInput) :
    let traced := Tracer.program (fuelFor tokens.length) (.start tokens)
    (∃ stmts finish, traced.outcome = .done stmts finish ∧
      Reader.program (fuelFor tokens.length) (.ofTokens tokens) = .done stmts finish.cursor ∧
      parse tokens = ⟨stmts, finish.errors.reverse⟩ ∧
      finish.tokens = tokens ∧ finish.current = Token.firstEnd tokens) ∧
    Token.firstEnd tokens < tokens.length ∧
    (∀ index ∈ traced.trail.reads ++ traced.trail.moves, index ≤ Token.firstEnd tokens) ∧
    (∀ call ∈ traced.trail.calls, call.start.current < Token.firstEnd tokens ∧
      ∃ fuel stmt after, Reader.declaration fuel call.start.cursor = .done stmt after.cursor ∧
        call.outcome = .done stmt after ∧ call.start.current < after.current) ∧
    traced.trail.calls.Pairwise fun call later => call.start.current < later.start.current := by
  intro traced
  have inRange : (Pointer.start tokens).InRange :=
    ⟨⟨last, List.mem_of_getLast? ends, isEnd⟩, Nat.zero_le _⟩
  obtain ⟨stmts, stop, ran⟩ := exists_done tokens
  have emptied : stop.rest = [] := by
    have ensured := parse_ensures tokens
    unfold Reader.Ensures at ensured
    rw [ran] at ensured
    exact ensured.2.2.2
  have follows := Tracer.program_follows (fuelFor tokens.length) 0 _ inRange (Nat.le_refl _)
  rw [Pointer.cursor_start, ran] at follows
  obtain ⟨finish, ended, rfl⟩ : ∃ finish, traced.outcome = .done stmts finish ∧
      finish.cursor = stop := by
    have sees := follows.sees
    change traced.outcome.Sees _ at sees
    generalize traced.outcome = outcome at sees ⊢
    cases sees with
    | done _ finish => exact ⟨finish, rfl, rfl⟩
  obtain ⟨onward, passed⟩ := follows.stops finish (congrArg Landed.stops? ended)
  have atEnd := (onward.inRange inRange).rest_eq_nil_iff.mp emptied
  rw [onward.tokens] at atEnd
  refine ⟨⟨stmts, finish, ended, ran, parse_eq_of_done ran, onward.tokens, atEnd⟩,
    Pointer.firstEnd_lt inRange.ended, fun index member => ?_, fun call member => ?_,
    follows.leads.order⟩
  · cases List.mem_append.mp member with
    | inl read => exact follows.leads.reads index read
    | inr moved => exact follows.leads.moves index moved
  · obtain ⟨_, _, before⟩ := follows.leads.calls call member
    obtain ⟨fuel, sees⟩ := follows.leads.declares call member
    obtain ⟨stmt, after, outcome, _, advances⟩ := (passed call member).2
    rw [outcome] at sees
    refine ⟨before, fuel, stmt, after, ?_, outcome, advances⟩
    generalize Reader.declaration fuel call.start.cursor = parsed at sees ⊢
    cases sees
    rfl

/-- `{ var } )`, and tokens behind the first end of input: a declaration that fails before the brace which
closes its block, and one that fails at its first token. -/
theorem parse_progresses_recovering :
    let tokens : List Token := [⟨.symbol .leftBrace, 1⟩, ⟨.keyword .kwVar, 1⟩,
      ⟨.symbol .rightBrace, 1⟩, ⟨.symbol .rightParen, 1⟩, ⟨.endOfInput, 1⟩, ⟨.keyword .kwNil, 1⟩,
      ⟨.endOfInput, 2⟩]
    let traced := Tracer.program (fuelFor tokens.length) (.start tokens)
    traced.trail.calls.map (·.start.current) = [0, 1, 3] ∧ traced.trail.moves = [1, 2, 3, 4] ∧
      (parse tokens).errors.length = 2 ∧
      (∃ stmts finish, traced.outcome = .done stmts finish ∧ finish.current = 4) ∧
      ∀ call ∈ traced.trail.calls, ∃ stmt after, call.outcome = .done stmt after ∧
        call.start.current < after.current := by
  intro tokens traced
  have ends : tokens.getLast? = some ⟨.endOfInput, 2⟩ := rfl
  obtain ⟨⟨stmts, finish, ended, _, _, _, stopped⟩, _, _, advance, _⟩ := parse_progresses ends rfl
  refine ⟨by decide +kernel, by decide +kernel, by decide +kernel, ⟨stmts, finish, ended, stopped⟩,
    fun call member => ?_⟩
  obtain ⟨_, _, stmt, after, _, outcome, advances⟩ := advance call member
  exact ⟨stmt, after, outcome, advances⟩

end Program

end Lox
