import Lox.Proofs.Grammar.ReadingStatements
import Lox.Proofs.Grammar.Soundness

/-!
# Completeness of the parser

Parsing undoes writing: a program of the grammar's shape that can be read back is, written on one
line, parsed without errors as the program itself. That the parser has enough fuel for it is a part
of its soundness.
-/

namespace Lox

open Token.Kind

namespace Reader

variable {line last fuel : Nat}

/-! ## Declarations -/

theorem parameters_complete (complete : Complete line last fuel) (count : Nat) (names : List Name)
    (rest : List Token.Kind) (some : names ≠ []) (few : count + names.length ≤ maximumArity) :
    Yields line last (parameters (fuel + 1) count) (Name.writtenEach names ++
      .symbol .rightParen :: rest) (names.map (·.onLine line)) (.symbol .rightParen :: rest) := by
  cases names with
  | nil => exact absurd rfl some
  | cons name others =>
    rw [List.length_cons] at few
    unfold parameters
    rw [if_neg (by omega)]
    cases others with
    | nil => exact yields_identifier (yields_accept_absent (by simp) yields_pure)
    | cons other more =>
      rw [Name.writtenEach_cons name (List.cons_ne_nil _ _), List.cons_append, List.cons_append]
      refine yields_identifier (yields_accept_present ?_)
      exact yields_bind (complete.parameters (count + 1) (other :: more) rest (List.cons_ne_nil _ _)
        (by omega)) yields_pure

theorem block_complete (complete : Complete line last fuel) (body : List (Stmt Unit))
    (rest : List Token.Kind) (shaped : Stmt.WellShapedEach body)
    (readable : Stmt.ReadableEach body) :
    Yields line last (block (fuel + 1)) (Stmt.writtenEach body ++ .symbol .rightBrace :: rest)
      (Stmt.onLineEach line body) rest := by
  unfold block
  exact yields_bind (complete.declarations body rest shaped readable) (yields_expect yields_pure)

theorem functionRest_complete (complete : Complete line last fuel) (role : FunctionRole)
    (lambda : Lambda Unit) (rest : List Token.Kind) (shaped : lambda.WellShaped)
    (readable : lambda.Readable) :
    Yields line last (functionRest (fuel + 1) role) (lambda.written ++ rest) (lambda.onLine line)
      rest := by
  obtain ⟨names, body⟩ := lambda
  have ends := complete.block body rest shaped readable.2
  unfold functionRest
  simp only [Lambda.written, List.cons_append, List.append_assoc, List.nil_append]
  cases names with
  | nil =>
    refine yields_nextIs_present (yields_expect (yields_expect ?_))
    exact yields_bind ends yields_pure
  | cons name others =>
    have front_ne : front (Name.writtenEach (name :: others) ++ .symbol .rightParen ::
        .symbol .leftBrace :: (Stmt.writtenEach body ++ .symbol .rightBrace :: rest)) ≠
          .symbol .rightParen := by
      cases others <;> intro closing <;> cases closing
    refine yields_nextIs_absent front_ne (yields_bind (complete.parameters 0 (name :: others) _
      (List.cons_ne_nil _ _) (by rw [Nat.zero_add]; exact readable.1)) ?_)
    exact yields_expect (yields_expect (yields_bind ends yields_pure))

theorem function_complete (complete : Complete line last fuel) (role : FunctionRole)
    (method : Method Unit) (rest : List Token.Kind) (shaped : method.WellShaped)
    (readable : method.Readable) :
    Yields line last (function (fuel + 1) role) (method.written ++ rest) (method.onLine line)
      rest := by
  obtain ⟨name, lambda⟩ := method
  unfold function
  refine yields_identifier (yields_expect ?_)
  exact yields_bind (complete.functionRest role lambda rest shaped readable) yields_pure

theorem methods_complete (complete : Complete line last fuel) (methods : List (Method Unit))
    (rest : List Token.Kind) (shaped : Method.WellShapedEach methods)
    (readable : Method.ReadableEach methods) :
    Yields line last (Reader.methods (fuel + 1)) (Method.writtenEach methods ++
      .symbol .rightBrace :: rest) (Method.onLineEach line methods)
      (.symbol .rightBrace :: rest) := by
  unfold Reader.methods
  cases methods with
  | nil => exact yields_nextIs_present (yields_atEnd yields_pure)
  | cons method others =>
    obtain ⟨name, lambda⟩ := method
    have function := complete.function .method ⟨name, lambda⟩
      (Method.writtenEach others ++ .symbol .rightBrace :: rest) shaped.1 readable.1
    simp only [Method.writtenEach, Method.written, List.cons_append, List.append_assoc]
      at function ⊢
    refine yields_nextIs_absent (by simp [Name.written]) (yields_atEnd (yields_bind function ?_))
    exact yields_bind (complete.methods others rest shaped.2 readable.2) yields_pure

theorem classDecl_complete (complete : Complete line last fuel) (name : Name)
    (superclass : Option (Superclass Unit)) (methods : List (Method Unit)) :
    YieldsRest line last (classDecl (fuel + 1)) (.classDecl name superclass methods) := by
  intro rest shaped readable _
  have body := complete.methods methods rest shaped readable
  unfold classDecl
  cases superclass with
  | none =>
    simp only [Stmt.written, List.tail_cons, Option.map_none, Option.getD_none, List.cons_append,
      List.append_assoc, List.nil_append]
    refine yields_identifier (yields_accept_absent (by simp) (yields_expect ?_))
    exact yields_bind body (yields_expect yields_pure)
  | some parent =>
    simp only [Stmt.written, List.tail_cons, Option.map_some, Option.getD_some, List.cons_append,
      List.append_assoc, List.nil_append]
    refine yields_identifier (yields_accept_present (yields_identifier (yields_expect ?_)))
    exact yields_bind body (yields_expect yields_pure)

theorem declared_complete (complete : Complete line last fuel) (stmt : Stmt Unit)
    (rest : List Token.Kind) (shaped : stmt.WellShaped) (readable : stmt.Readable)
    (declares : ¬stmt.StartsAsFunction) (noElse : front rest ≠ .keyword .kwElse) :
    Yields line last (declared (fuel + 1)) (stmt.written ++ rest) (stmt.onLine line) rest := by
  unfold declared
  -- What starts as an expression does is told from the declarations by its first token, the others
  -- by what they are.
  by_cases simple : stmt.IsSimple
  · have starts := simple.starts shaped rest
    refine yields_next fun token found => ?_
    split
    · next keyword =>
      rw [← found, keyword] at starts
      cases starts
    · next keyword =>
      rw [keyword] at found
      exact absurd ⟨simple, Stmt.head?_written simple shaped found.symm⟩ declares
    · next keyword =>
      rw [← found, keyword] at starts
      cases starts
    · exact complete.statement stmt rest (Stmt.declaredName?_of_isSimple simple) shaped readable
        fun _ => noElse
  · cases stmt with
    | expression _ | assign _ _ | set _ _ _ => exact absurd trivial simple
    | classDecl _ _ _ =>
      exact yields_next_cons (yields_advance (complete.classDecl _ _ _ rest shaped readable nofun))
    | funDecl name lambda =>
      refine yields_next_cons (yields_advance ?_)
      exact yields_bind (complete.function .function ⟨name, lambda⟩ rest shaped readable) yields_pure
    | varDecl _ _ =>
      exact yields_next_cons (yields_advance (complete.varDecl _ _ rest shaped readable nofun))
    | _ => exact yields_next_cons (complete.statement _ rest rfl shaped readable fun _ => noElse)

theorem declaration_complete (complete : Complete line last fuel) (stmt : Stmt Unit)
    (rest : List Token.Kind) (shaped : stmt.WellShaped) (readable : stmt.Readable)
    (declares : ¬stmt.StartsAsFunction) (noElse : front rest ≠ .keyword .kwElse) :
    Yields line last (declaration (fuel + 1)) (stmt.written ++ rest) (some (stmt.onLine line))
      rest := by
  unfold declaration Yields
  dsimp only
  obtain empty | done := complete.declared stmt rest shaped readable declares noElse
  · rw [empty]
    exact .inl rfl
  · rw [done]
    exact .inr rfl

theorem declarations_complete (complete : Complete line last fuel) (body : List (Stmt Unit))
    (rest : List Token.Kind) (shaped : Stmt.WellShapedEach body)
    (readable : Stmt.ReadableEach body) :
    Yields line last (declarations (fuel + 1)) (Stmt.writtenEach body ++
      .symbol .rightBrace :: rest) (Stmt.onLineEach line body) (.symbol .rightBrace :: rest) := by
  unfold declarations
  cases body with
  | nil => exact yields_nextIs_present (yields_atEnd yields_pure)
  | cons stmt others =>
    obtain ⟨stmtReadable, declares, othersReadable⟩ := readable
    simp only [Stmt.writtenEach, List.append_assoc]
    have starts := stmt.starts shaped.1 (Stmt.writtenEach others ++ .symbol .rightBrace :: rest)
    -- No statement starts with the brace that would close the block.
    refine yields_nextIs_absent ?_ (yields_atEnd ?_)
    · intro closing
      rw [closing] at starts
      cases starts
    · rw [Bool.false_or, isEmpty_of_startsStatement starts]
      refine yields_bind (complete.declaration stmt _ shaped.1 stmtReadable declares
        (Stmt.front_writtenEach_ne_else shaped.2 (by simp))) ?_
      exact yields_bind (complete.declarations others rest shaped.2 othersReadable) yields_pure

theorem program_complete (complete : Complete line last fuel) (stmts : List (Stmt Unit))
    (shaped : Stmt.WellShapedEach stmts) (readable : Stmt.ReadableEach stmts) :
    Yields line last (program (fuel + 1)) (Stmt.writtenEach stmts) (Stmt.onLineEach line stmts)
      [] := by
  unfold program
  cases stmts with
  | nil => exact yields_atEnd yields_pure
  | cons stmt others =>
    obtain ⟨stmtReadable, declares, othersReadable⟩ := readable
    have starts := stmt.starts shaped.1 (Stmt.writtenEach others)
    have noElse : front (Stmt.writtenEach others ++ []) ≠ .keyword .kwElse :=
      Stmt.front_writtenEach_ne_else shaped.2 (by simp)
    rw [List.append_nil] at noElse
    refine yields_atEnd ?_
    rw [Stmt.writtenEach, isEmpty_of_startsStatement starts]
    refine yields_bind (complete.declaration stmt _ shaped.1 stmtReadable declares noElse) ?_
    exact yields_bind (complete.program others shaped.2 othersReadable) yields_pure

/-- Every rule reads back what it derives, or runs out of fuel, by induction on the fuel. -/
theorem complete (line last fuel : Nat) : Complete line last fuel := by
  induction fuel with
  | zero =>
    constructor
    all_goals
      repeat intro
      exact yields_outOfFuel
  | succ fuel ih =>
    exact
      { program := program_complete ih
        declaration := declaration_complete ih
        declared := declared_complete ih
        classDecl := classDecl_complete ih
        methods := methods_complete ih
        function := function_complete ih
        functionRest := functionRest_complete ih
        parameters := parameters_complete ih
        varDecl := varDecl_complete ih
        block := block_complete ih
        declarations := declarations_complete ih
        statement := statement_complete ih
        forLoop := forLoop_complete ih
        forInitializer := forInitializer_complete ih
        clause := clause_complete ih
        branch := branch_complete ih
        whileLoop := whileLoop_complete ih
        returnValue := returnValue_complete ih
        expressionStatement := expressionStatement_complete ih
        assignments := assignments_complete ih
        expression := expression_complete ih
        operands := operands_complete ih
        furtherOperands := furtherOperands_complete ih
        assignmentExpression := assignmentExpression_complete ih
        ternary := ternary_complete ih
        leveled := leveled_complete ih
        operations := operations_complete ih
        operand := operand_complete ih
        unary := unary_complete ih
        calls := calls_complete ih
        arguments := arguments_complete ih
        primary := primary_complete ih }

end Reader

namespace Program

/-- The tokens of a program on one line, with the end of the input after them. -/
def tokensOnLine (line last : Nat) (stmts : List (Stmt Unit)) : List Token :=
  (Stmt.writtenEach stmts).map (⟨·, line⟩) ++ [⟨.endOfInput, last⟩]

theorem ofTokens_tokensOnLine {line last : Nat} {stmts : List (Stmt Unit)} :
    Cursor.ofTokens (tokensOnLine line last stmts) =
      Cursor.onLine line last (Stmt.writtenEach stmts) := by
  have goesOn : ∀ token ∈ (Stmt.writtenEach stmts).map (⟨·, line⟩ : Token.Kind → Token),
      token.kind ≠ .endOfInput := by
    simp only [List.mem_map]
    rintro _ ⟨kind, member, rfl⟩ rfl
    exact Stmt.endOfInput_not_mem_writtenEach stmts member
  unfold Cursor.ofTokens Cursor.onLine tokensOnLine
  generalize (Stmt.writtenEach stmts).map (⟨·, line⟩ : Token.Kind → Token) = tokens at goesOn ⊢
  have found : tokens.find? (·.kind = .endOfInput) = none := by simpa using goesOn
  rw [List.takeWhile_append_of_pos (by simpa using goesOn), List.find?_append, found]
  simp

theorem parse_written {line last : Nat} {stmts : List (Stmt Unit)}
    (shaped : Stmt.WellShapedEach stmts) (readable : Stmt.ReadableEach stmts) :
    parse (tokensOnLine line last stmts) = ⟨Stmt.onLineEach line stmts, []⟩ := by
  have ensured := parse_ensures (tokensOnLine line last stmts)
  unfold parse
  rw [ofTokens_tokensOnLine] at ensured ⊢
  -- The fuel that `parse` gives is enough for any tokens, which rules out the first alternative.
  obtain empty | done := (Reader.complete line last _).program stmts shaped readable
  · unfold Reader.Ensures at ensured
    rw [empty] at ensured
    exact ensured.elim
  · rw [done]
    rfl

theorem parse_written_branch :
    let stmt : Stmt Unit :=
      .branch (.reference ⟨"a", 1⟩ ())
        (.block [.funDecl ⟨"f", 1⟩ ⟨[⟨"x", 1⟩, ⟨"y", 1⟩], [.returnValue 1 (some (.comma
          [.reference ⟨"x", 1⟩ (), .assign ⟨"y", 1⟩ () (.literal .nil)]))]⟩])
        (some (.set (.function ⟨[], []⟩) ⟨"b", 1⟩ (.conditional 1 (.literal (.boolean true))
          (.call (.reference ⟨"f", 1⟩ ()) 1 [.thisInstance 1 (), .literal (.text "z")])
          (.binary .power 1 (.binary .multiply 1 (.literal .nil) (.literal .nil))
            (.unary .negate 1 (.reference ⟨"c", 1⟩ ()))))))
    Stmt.WellShapedEach [stmt] ∧ Stmt.ReadableEach [stmt] ∧
      parse (tokensOnLine 1 1 [stmt]) = ⟨Stmt.onLineEach 1 [stmt], []⟩ := by
  intro stmt
  have shaped : Stmt.WellShapedEach [stmt] := by
    simp [stmt, Stmt.WellShapedEach, Stmt.WellShaped, Stmt.WellShapedPart, Lambda.WellShaped,
      Expr.WellShapedPart, Expr.WellShaped, Expr.WellShapedEach, Stmt.declaredName?,
      Expr.tightness, BinaryOperator.level, Level.tightness]
  have readable : Stmt.ReadableEach [stmt] := by
    simp [stmt, Stmt.ReadableEach, Stmt.Readable, Stmt.ReadablePart, Lambda.Readable,
      Expr.ReadablePart, Expr.Readable, Expr.ReadableEach, Stmt.EndsOpen, Stmt.StartsAsFunction,
      Stmt.IsSimple, Reader.maximumArity]
  exact ⟨shaped, readable, parse_written shaped readable⟩

/-- Where a declaration may stand, `fun` begins one also if it is the start of the target of an
assignment, of the grammar's shape though that is. -/
theorem parse_written_functionTarget :
    let stmt : Stmt Unit := .set (.function ⟨[], []⟩) ⟨"x", 1⟩ (.literal .nil)
    stmt.WellShaped ∧ stmt.Readable ∧ (∀ value, stmt ≠ .expression value) ∧
      parse (tokensOnLine 1 1 [stmt]) ≠ ⟨Stmt.onLineEach 1 [stmt], []⟩ := by
  refine ⟨⟨by decide, trivial, by decide, trivial⟩, ⟨⟨by decide, trivial⟩, trivial⟩, nofun, ?_⟩
  intro same
  have clean := congrArg Program.errors same
  exact absurd clean (by decide +kernel)

end Program

end Lox
