import Lox.Proofs.Recovery.Rules

/-!
# A malformed statement does not take others with it

Where the first declaration of some tokens fails before their end and nothing else is found in
them, recovery goes on at the next line, and what stands there is read as if it stood alone. The
condition cannot be left out: an error about the target of an assignment may be raised when the
whole value has been taken already, and then recovery gives up the first token of the next
statement.
-/

namespace Lox

/-! ## Where reading goes on -/

namespace Cursor

theorem skipFrom_below {previous : Token} {tokens following : List Token}
    (none : skipFrom previous tokens = [])
    (below : ∀ last ∈ (previous :: tokens).getLast?, ∀ first ∈ following.head?,
      last.line < first.line) :
    skipFrom previous (tokens ++ following) = following := by
  induction tokens generalizing previous with
  | nil =>
    -- Everything is skipped, so the first line that reading may go on at is that of the tokens
    -- that follow.
    cases following with
    | nil => rfl
    | cons first rest =>
      have starts := below previous rfl first rfl
      simp [skipFrom, starts]
  | cons token rest ih =>
    rw [skipFrom] at none
    rw [List.cons_append, skipFrom]
    split at none
    · cases none
    · next inside =>
      rw [if_neg inside]
      exact ih none below

/-- With nothing left to go on with, reading goes on at the next line. -/
theorem resumed_below {start rest following : List Token} (none : resumed start rest = [])
    (left : rest ≠ [])
    (below : ∀ last ∈ rest.getLast?, ∀ first ∈ following.head?, last.line < first.line) :
    resumed (start ++ following) (rest ++ following) = following := by
  cases rest with
  | nil => exact absurd rfl left
  | cons token more =>
    simp only [resumed, List.cons_append, List.length_cons, List.length_append] at none ⊢
    have same : more.length + following.length + 1 ≠ start.length + following.length ↔
        more.length + 1 ≠ start.length := by omega
    simp only [same]
    split at none
    · cases none
    · next passed =>
      rw [if_neg passed]
      exact skipFrom_below none below

end Cursor

/-! ## Runs of declarations -/

namespace Reader

variable {fuel : Nat} {cursor after : Cursor}

theorem program_succ (fuel : Nat) (left : cursor.rest ≠ []) :
    program (fuel + 1) cursor =
      (declaration fuel >>= fun first => program fuel >>= fun rest =>
        pure (first.toList ++ rest)) cursor := by
  have more : cursor.rest.isEmpty = false := by simpa using left
  change (if cursor.rest.isEmpty = true then _ else _ : Reader _) cursor = _
  rw [more]
  rfl

theorem program_nil (fuel : Nat) (none : cursor.rest = []) :
    program (fuel + 1) cursor = .done [] cursor := by
  have emptied : cursor.rest.isEmpty = true := by simpa using none
  change (if cursor.rest.isEmpty = true then _ else _ : Reader _) cursor = _
  rw [emptied]
  rfl

theorem declaration_ne_failed {error : SyntaxError} :
    declaration fuel cursor ≠ .failed error after := by
  cases fuel with
  | zero => nofun
  | succ fuel =>
    unfold declaration
    split <;> nofun

theorem declaration_of_failed {error : SyntaxError}
    (fails : declared fuel cursor = .failed error after) :
    declaration (fuel + 1) cursor = .done none (after.recover cursor error) := by
  unfold declaration
  rw [fails]

theorem program_ne_failed {error : SyntaxError} : program fuel cursor ≠ .failed error after := by
  induction fuel generalizing cursor after error with
  | zero => nofun
  | succ fuel ih =>
    by_cases left : cursor.rest = []
    · rw [program_nil fuel left]
      nofun
    · rw [program_succ fuel left]
      change Reader.bind (declaration fuel) _ cursor ≠ _
      unfold Reader.bind
      intro ran
      split at ran
      · next first middle _ =>
        change Reader.bind (program fuel) _ middle = _ at ran
        unfold Reader.bind at ran
        split at ran
        · cases ran
        · next failed => exact ih failed
        · cases ran
      · next failed => exact declaration_ne_failed failed
      · cases ran

/-- After a declaration that failed, a run goes on with what recovery leaves. -/
theorem program_of_failed {error : SyntaxError} {stmts : List (Stmt Unit)} {finish : Cursor}
    (left : cursor.rest ≠ []) (fails : declared fuel cursor = .failed error after)
    (onward : program (fuel + 1) (after.recover cursor error) = .done stmts finish) :
    program (fuel + 2) cursor = .done stmts finish := by
  rw [program_succ _ left, bind_of_done (declaration_of_failed fails), bind_of_done onward]
  rfl

/-- A run over some tokens that gives no statement starts with a declaration that fails. -/
theorem program_eq_nil (ran : program fuel cursor = .done [] after) (left : cursor.rest ≠ []) :
    ∃ before error here, declared before cursor = .failed error here ∧ fuel = before + 2 ∧
      program (before + 1) (here.recover cursor error) = .done [] after := by
  obtain _ | fuel := fuel
  · cases ran
  rw [program_succ fuel left] at ran
  obtain ⟨first, middle, declares, further⟩ := exists_of_bind_done ran
  obtain ⟨rest, finish, runs, joined⟩ := exists_of_bind_done further
  obtain ⟨none, rfl⟩ := Parsed.done.inj joined
  -- A first declaration that was read would be among the statements.
  obtain ⟨noFirst, rfl⟩ := List.append_eq_nil_iff.mp none
  obtain _ | fuel := fuel
  · cases declares
  unfold declaration at declares
  split at declares
  · cases declares
    cases noFirst
  · next error here fails =>
    cases declares
    exact ⟨fuel, error, here, fails, rfl, runs⟩
  · cases declares

/-- A run that gives neither a statement nor an error found nothing to read. -/
theorem rest_eq_nil_of_program (ran : program fuel cursor = .done [] after)
    (clean : after.errors.length ≤ cursor.errors.length) : cursor.rest = [] := by
  refine Decidable.byContradiction fun left => ?_
  obtain ⟨before, error, here, fails, -, onward⟩ := program_eq_nil ran left
  -- Recovery records the error, and no error is ever taken back.
  have reached := ((declared_widens before 0).failed fails).1.errors.length_le
  have further := ((program_widens (before + 1) 0).done onward).1.errors.length_le
  simp only [Cursor.recover, List.length_cons] at further
  omega

end Reader

/-! ## More fuel -/

namespace Cursor

theorem extend_nil (cursor : Cursor) : cursor.extend ⟨[], cursor.stop, []⟩ = cursor := by
  simp [extend]

end Cursor

namespace Reader

variable {fuel more : Nat} {cursor after : Cursor}

theorem declared_mono {error : SyntaxError} (enough : fuel ≤ more)
    (fails : declared fuel cursor = .failed error after) :
    declared more cursor = .failed error after := by
  obtain ⟨extra, rfl⟩ := Nat.exists_eq_add_of_le' enough
  obtain ⟨reached, -, same⟩ := (declared_widens fuel extra).failed fails
  have wide := same ⟨[], cursor.stop, []⟩ (.inr ⟨rfl, reached.stop.symm⟩)
  rwa [Cursor.extend_nil, ← reached.stop, Cursor.extend_nil] at wide

/-- Where a declaration fails does not depend on the fuel. -/
theorem declared_unique {error other : SyntaxError} {elsewhere : Cursor}
    (fails : declared fuel cursor = .failed error after)
    (failsToo : declared more cursor = .failed other elsewhere) : after = elsewhere := by
  -- Both runs are the same as one with the larger amount of fuel.
  have wide := declared_mono (Nat.le_max_left fuel more) fails
  rw [declared_mono (Nat.le_max_right fuel more) failsToo] at wide
  exact (Parsed.failed.inj wide).2.symm

/-- The errors found before a run over the rest of the input stay as they are. -/
theorem program_frame {stmts : List (Stmt Unit)} (enough : fuel ≤ more) (errors : List SyntaxError)
    (ran : program fuel cursor = .done stmts after) :
    program more ⟨cursor.rest, cursor.stop, cursor.errors ++ errors⟩ =
      .done stmts ⟨after.rest, after.stop, after.errors ++ errors⟩ := by
  obtain ⟨extra, rfl⟩ := Nat.exists_eq_add_of_le' enough
  obtain ⟨reached, same⟩ := (program_widens fuel extra).done ran
  have wide := same ⟨[], cursor.stop, errors⟩ (.inr ⟨rfl, reached.stop.symm⟩)
  simpa [Cursor.extend, reached.stop] using wide

end Reader

/-! ## Programs -/

theorem Cursor.ofTokens_append {front tokens : List Token}
    (closed : ∀ token ∈ front, token.kind ≠ .endOfInput)
    (ended : ∃ token ∈ tokens, token.kind = .endOfInput) :
    ofTokens (front ++ tokens) = ⟨front ++ (ofTokens tokens).rest, (ofTokens tokens).stop, []⟩ := by
  have none : front.find? (·.kind = .endOfInput) = none := by simpa using closed
  obtain ⟨stop, found⟩ : ∃ stop, tokens.find? (·.kind = .endOfInput) = some stop := by
    simpa [← Option.isSome_iff_exists] using ended
  have whole : (front ++ tokens).takeWhile (·.kind ≠ .endOfInput) =
      front ++ tokens.takeWhile (·.kind ≠ .endOfInput) :=
    List.takeWhile_append_of_pos (by simpa using closed)
  simp only [ofTokens, whole, List.find?_append, none, found, Option.none_or, Option.getD_some]

namespace Program

/-- The first declaration fails before the end of the tokens. -/
def FailsWithin (tokens : List Token) : Prop :=
  ∃ fuel error cursor, Reader.declared fuel (.ofTokens tokens) = .failed error cursor ∧
    cursor.rest ≠ []

theorem parse_eq_of_done {tokens : List Token} {stmts : List (Stmt Unit)} {cursor : Cursor}
    (ran : Reader.program (fuelFor tokens.length) (.ofTokens tokens) = .done stmts cursor) :
    parse tokens = ⟨stmts, cursor.errors.reverse⟩ := by
  rw [parse, ran]

theorem exists_done (tokens : List Token) : ∃ stmts cursor,
    Reader.program (fuelFor tokens.length) (.ofTokens tokens) = .done stmts cursor := by
  have ensured := parse_ensures tokens
  unfold Reader.Ensures at ensured
  split at ensured
  · next stmts cursor ran => exact ⟨stmts, cursor, ran⟩
  · next ran => exact absurd ran Reader.program_ne_failed
  · exact ensured.elim

section

variable {malformed following : List Token} {stop finish : Token} {error : SyntaxError}

theorem ofTokens_alone (closed : ∀ token ∈ malformed, token.kind ≠ .endOfInput)
    (stops : stop.kind = .endOfInput) :
    Cursor.ofTokens (malformed ++ [stop]) = ⟨malformed, stop, []⟩ := by
  rw [Cursor.ofTokens_append closed ⟨stop, .head _, stops⟩]
  simp [Cursor.ofTokens, stops]

/-- How the first declaration fails where nothing else is found. -/
theorem declared_of_parse (some : malformed ≠ [])
    (closed : ∀ token ∈ malformed, token.kind ≠ .endOfInput) (stops : stop.kind = .endOfInput)
    (alone : parse (malformed ++ [stop]) = ⟨[], [error]⟩) :
    ∃ fuel here, fuel + 2 = 32 * (malformed.length + 2) ∧
      Reader.declared fuel ⟨malformed, stop, []⟩ = .failed error here ∧
      here.errors = [] ∧ Cursor.resumed malformed here.rest = [] := by
  obtain ⟨stmts, after, ran⟩ := exists_done (malformed ++ [stop])
  rw [parse_eq_of_done ran] at alone
  obtain ⟨rfl, found⟩ := Program.mk.inj alone
  have errors : after.errors = [error] := by simpa using found
  rw [ofTokens_alone closed stops, List.length_append, List.length_singleton] at ran
  obtain ⟨before, raised, here, fails, fuel, onward⟩ := Reader.program_eq_nil ran some
  -- The error is the only one, so it is the one that the whole run ends with.
  obtain ⟨front, same⟩ := ((Reader.program_widens _ 0).done onward).1.errors
  rw [errors] at same
  have only : raised = error ∧ here.errors = [] := by
    cases front with
    | nil => simpa [Cursor.recover] using same
    | cons _ _ => simp [Cursor.recover] at same
  obtain ⟨rfl, clean⟩ := only
  have none := Reader.rest_eq_nil_of_program onward (by simp [errors, Cursor.recover])
  exact ⟨before, here, fuel.symm, fails, clean, none⟩

/-- An error at one of the tokens leaves that token or a later one, unless the error is about the
target of an assignment. -/
theorem rest_ne_nil_of_failed {fuel : Nat} {here : Cursor}
    (closed : ∀ token ∈ malformed, token.kind ≠ .endOfInput) (stops : stop.kind = .endOfInput)
    (own : error.token ∈ malformed)
    (within : error.problem = .invalidAssignmentTarget → FailsWithin (malformed ++ [stop]))
    (fails : Reader.declared fuel ⟨malformed, stop, []⟩ = .failed error here) :
    here.rest ≠ [] := by
  obtain ⟨reached, located, -⟩ := (Reader.declared_widens fuel 0).failed fails
  cases located with
  -- Such an error says nothing of where it was raised: where that is, is known from the run
  -- that fails within the tokens.
  | inl target =>
    obtain ⟨_, _, elsewhere, failsToo, left⟩ := within target
    rw [ofTokens_alone closed stops] at failsToo
    rwa [Reader.declared_unique fails failsToo]
  | inr front =>
    intro emptied
    -- With nothing left the error would be about the end, which is none of the tokens.
    have atStop : error.token = stop := by
      rw [front, Cursor.next, emptied, List.head?_nil, Option.getD_none, reached.stop]
    exact closed _ own (atStop ▸ stops)

theorem head?_ofTokens (finishes : finish.kind = .endOfInput) {first : Token}
    (front : first ∈ (Cursor.ofTokens (following ++ [finish])).rest.head?) :
    first ∈ following.head? := by
  cases following with
  | nil => simp [Cursor.ofTokens, finishes] at front
  | cons token rest =>
    simp only [Cursor.ofTokens, List.cons_append, List.takeWhile_cons] at front
    split at front
    · exact front
    · cases front

/-- A malformed statement is the only thing lost. -/
theorem parse_malformed_append (closed : ∀ token ∈ malformed, token.kind ≠ .endOfInput)
    (stops : stop.kind = .endOfInput) (finishes : finish.kind = .endOfInput)
    (alone : parse (malformed ++ [stop]) = ⟨[], [error]⟩) (own : error.token ∈ malformed)
    (within : error.problem = .invalidAssignmentTarget → FailsWithin (malformed ++ [stop]))
    (wellFormed : (parse (following ++ [finish])).errors = [])
    (below : ∀ last ∈ malformed.getLast?, ∀ first ∈ following.head?, last.line < first.line) :
    parse (malformed ++ (following ++ [finish])) =
      ⟨(parse (following ++ [finish])).statements, [error]⟩ := by
  have some : malformed ≠ [] := List.ne_nil_of_mem own
  obtain ⟨fuel, here, enough, fails, clean, none⟩ := declared_of_parse some closed stops alone
  have left := rest_ne_nil_of_failed closed stops own within fails
  obtain ⟨reached, -, same⟩ := (Reader.declared_widens _ (32 * following.length)).failed fails
  obtain ⟨stmts, after, ran⟩ := exists_done (following ++ [finish])
  rw [parse_eq_of_done ran] at wellFormed ⊢
  have clear : after.errors = [] := by simpa using wellFormed
  obtain ⟨rest, ending, next⟩ : ∃ rest ending, Cursor.ofTokens (following ++ [finish]) =
      ⟨rest, ending, []⟩ := ⟨_, _, rfl⟩
  have resumed : Cursor.resumed (malformed ++ rest) (here.rest ++ rest) = rest := by
    refine Cursor.resumed_below none left fun last ends first front => ?_
    -- The last token that is left is the last of the malformed ones.
    obtain ⟨taken, whole : taken ++ here.rest = malformed⟩ := reached.rest
    refine below last ?_ first (head?_ofTokens finishes (next ▸ front))
    rw [← whole, List.getLast?_append, Option.mem_def.mp ends]
    rfl
  -- The first declaration fails as before, and reading goes on as if nothing had come before it.
  have failsToo := same ⟨rest, ending, []⟩ (.inl left)
  have onward : Reader.program (32 * following.length + fuel + 1) ⟨rest, ending, [error]⟩ =
      .done stmts ⟨after.rest, after.stop, [error]⟩ := by
    -- The fuel for all the tokens is that for the following ones and some more, which is enough
    -- for what fails.
    have longer : 0 < malformed.length := List.length_pos_iff.mpr some
    have more : fuelFor (following ++ [finish]).length ≤ 32 * following.length + fuel + 1 := by
      simp only [fuelFor, List.length_append, List.length_singleton]
      omega
    simpa [next, clear] using Reader.program_frame more [error] ran
  have whole := Reader.program_of_failed (by simp [Cursor.extend, some]) failsToo (by
    simpa [Cursor.recover, Cursor.extend, resumed, clean] using onward)
  have total : fuelFor (malformed ++ (following ++ [finish])).length =
      32 * following.length + fuel + 2 := by
    simp only [fuelFor, List.length_append, List.length_singleton]
    omega
  rw [parse, total, Cursor.ofTokens_append closed ⟨finish, by simp, finishes⟩, next]
  simp only [Cursor.extend, List.append_nil] at whole
  rw [whole]
  rfl

/-- `f(nil = a) + b`, then `c`: what fails stands in brackets, so tokens are left behind it. -/
theorem parse_malformed_append_bracketed :
    let malformed : List Token := [⟨.identifier "f", 1⟩, ⟨.symbol .leftParen, 1⟩, ⟨.keyword .kwNil, 1⟩,
      ⟨.symbol .equal, 1⟩, ⟨.identifier "a", 1⟩, ⟨.symbol .rightParen, 1⟩, ⟨.symbol .plus, 1⟩,
      ⟨.identifier "b", 1⟩]
    let following : List Token := [⟨.identifier "c", 2⟩]
    let error : SyntaxError := ⟨.invalidAssignmentTarget, ⟨.symbol .equal, 1⟩⟩
    parse (malformed ++ [⟨.endOfInput, 1⟩]) = ⟨[], [error]⟩ ∧
      FailsWithin (malformed ++ [⟨.endOfInput, 1⟩]) ∧
      parse (malformed ++ (following ++ [⟨.endOfInput, 2⟩])) =
        ⟨[.expression (.reference ⟨"c", 2⟩ ())], [error]⟩ := by
  have within : FailsWithin [⟨.identifier "f", 1⟩, ⟨.symbol .leftParen, 1⟩, ⟨.keyword .kwNil, 1⟩,
      ⟨.symbol .equal, 1⟩, ⟨.identifier "a", 1⟩, ⟨.symbol .rightParen, 1⟩, ⟨.symbol .plus, 1⟩,
      ⟨.identifier "b", 1⟩, ⟨.endOfInput, 1⟩] :=
    ⟨fuelFor 9, _, _, rfl, by decide⟩
  exact ⟨rfl, within, parse_malformed_append (by decide) rfl rfl rfl (by decide) (fun _ => within) rfl
    (by decide)⟩

/-- `var a = nil = b`, then `print(c)`: when the error is raised at the second equals sign, `b` has
been taken, and the token that recovery gives up is `print`. -/
theorem parse_malformed_append_swallowed :
    ¬ ∀ (malformed following : List Token) (stop finish : Token) (error : SyntaxError),
      (∀ token ∈ malformed, token.kind ≠ .endOfInput) → stop.kind = .endOfInput →
      finish.kind = .endOfInput → parse (malformed ++ [stop]) = ⟨[], [error]⟩ →
      error.token ∈ malformed → (parse (following ++ [finish])).errors = [] →
      (∀ last ∈ malformed.getLast?, ∀ first ∈ following.head?, last.line < first.line) →
      parse (malformed ++ (following ++ [finish])) =
        ⟨(parse (following ++ [finish])).statements, [error]⟩ := by
  intro claim
  have swallowed := claim
    [⟨.keyword .kwVar, 1⟩, ⟨.identifier "a", 1⟩, ⟨.symbol .equal, 1⟩, ⟨.keyword .kwNil, 1⟩,
      ⟨.symbol .equal, 1⟩, ⟨.identifier "b", 1⟩]
    [⟨.identifier "print", 2⟩, ⟨.symbol .leftParen, 2⟩, ⟨.identifier "c", 2⟩,
      ⟨.symbol .rightParen, 2⟩]
    ⟨.endOfInput, 1⟩ ⟨.endOfInput, 2⟩ ⟨.invalidAssignmentTarget, ⟨.symbol .equal, 1⟩⟩
    (by decide) rfl rfl rfl (by decide) rfl (by decide)
  have statements := congrArg (·.statements.length) swallowed
  exact absurd statements (by decide)

end

end Program

end Lox
