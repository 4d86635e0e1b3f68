import Lox.Proofs.Grammar.Expressions
import Lox.Proofs.Grammar.Statements

/-!
# Soundness of the parser

Declarations are where errors are recovered from, and a program is the declarations up to the end
of the input. From the contracts of all rules follows what a whole parse gives back: trees of the
grammar's shape always, and without errors a program that is written with the tokens read.
-/

namespace Lox

/-! ## Recovery -/

namespace Cursor

theorem skipFrom_suffix (previous : Token) (tokens : List Token) :
    skipFrom previous tokens <:+ tokens := by
  induction tokens generalizing previous with
  | nil => exact List.suffix_refl _
  | cons token rest ih =>
    unfold skipFrom
    split
    · exact List.suffix_refl _
    · exact (ih token).trans (List.suffix_cons _ _)

theorem resumed_suffix (start rest : List Token) : resumed start rest <:+ rest := by
  unfold resumed
  split
  · exact List.suffix_refl _
  · split
    · exact List.suffix_refl _
    · exact (skipFrom_suffix _ _).trans (List.suffix_cons _ _)

/-- Going on after an error leaves fewer tokens than there were before the declaration that
failed. -/
theorem length_resumed {start rest : List Token} (some : start ≠ [])
    (shorter : rest.length ≤ start.length) : (resumed start rest).length < start.length := by
  unfold resumed
  split
  · exact List.length_pos_iff.mpr some
  · next token more =>
    split
    · next closing => exact Nat.lt_of_le_of_ne shorter closing.2
    · have := (skipFrom_suffix token more).length_le
      simp only [List.length_cons] at shorter
      omega

theorem reaches_recover (cursor start : Cursor) (error : SyntaxError) :
    cursor.Reaches (cursor.recover start error) :=
  ⟨resumed_suffix _ _, rfl, List.suffix_cons _ _⟩

end Cursor

namespace Reader

variable {fuel : Nat}

/-! ## Declarations -/

theorem parameters_sound (sound : Sound fuel) (count : Nat) :
    Reads (fuel + 1) 1 (parameters (fuel + 1) count) fun start names finish =>
      start.Takes (Name.writtenEach names) finish ∧ names ≠ [] := by
  intro start ends enough
  unfold parameters
  -- As with arguments, the count decides whether an error is recorded first.
  have rest : ∀ here, start.Takes [] here → here.rest = start.rest →
      Ensures start here (do
        let parameter ← identifier .parameter
        if ← accept .comma then
          let rest ← parameters fuel (count + 1)
          pure (parameter :: rest)
        else pure [parameter]) fun names finish =>
          start.Takes (Name.writtenEach names) finish ∧ names ≠ [] := by
    intro here before same
    refine ensures_identifier before.toReaches fun text nameFound => ?_
    obtain ⟨name, shorter⟩ := Cursor.takes_advance (before.ends ends) nameFound (by simp)
    rw [same] at shorter
    have front := before.trans name
    refine ensures_accept (fun commaFound => ?_) (fun _ => ?_)
    · obtain ⟨comma, _⟩ := Cursor.takes_advance (front.ends ends) commaFound (by simp)
      have front := front.trans comma
      refine ensures_bind front.toReaches (sound.parameters _ _ (front.ends ends) (by omega)) ?_
      rintro names finish _ ⟨further, some⟩
      have takes := front.trans further
      refine ensures_pure takes.toReaches ⟨takes.congr ?_, List.cons_ne_nil _ _⟩
      rw [Name.writtenEach_cons _ some]
      rfl
    · exact ensures_pure front.toReaches ⟨front.congr rfl, List.cons_ne_nil _ _⟩
  dsimp only
  split
  · apply ensures_record
    exact rest _ (.ofErrors (.record _ _) (by simp [Cursor.record])) rfl
  · exact rest _ (.refl start) rfl

theorem functionRest_sound (sound : Sound fuel) (role : FunctionRole) :
    Reads (fuel + 1) 2 (functionRest (fuel + 1) role) (·.TakesLambda) := by
  intro start ends enough
  unfold functionRest
  refine ensures_unless (fun names finish => start.Takes (Name.writtenEach names) finish)
    (.refl start)
    (fun _ => (sound.parameters 0 start ends (by omega)).rebase (.refl _)
      fun _ _ _ taken => taken.1)
    (fun _ => .refl start) ?_
  intro names middle _ front
  refine ensures_expect front.toReaches fun closingFound => ?_
  obtain ⟨closing, _⟩ := Cursor.takes_advance (front.ends ends) closingFound (by simp)
  have front := front.trans closing
  refine ensures_expect front.toReaches fun openingFound => ?_
  obtain ⟨opening, _⟩ := Cursor.takes_advance (front.ends ends) openingFound (by simp)
  have shorter := front.length
  have front := front.trans opening
  refine ensures_bind front.toReaches (sound.block _ (front.ends ends) (by omega)) ?_
  rintro body finish _ ⟨taken, _, shaped⟩
  have takes := front.trans taken
  have := taken.length
  refine ensures_pure takes.toReaches ⟨takes.congr ?_, by omega, shaped⟩
  simp [Lambda.written]

theorem function_sound (sound : Sound fuel) (role : FunctionRole) :
    Reads (fuel + 1) 1 (function (fuel + 1) role) fun start method finish =>
      start.Takes method.written finish ∧ finish.rest.length < start.rest.length ∧
        method.WellShaped := by
  intro start ends enough
  unfold function
  refine ensures_identifier (.refl start) fun text nameFound => ?_
  obtain ⟨name, _⟩ := Cursor.takes_advance ends nameFound (by simp)
  refine ensures_expect name.toReaches fun openingFound => ?_
  obtain ⟨opening, _⟩ := Cursor.takes_advance (name.ends ends) openingFound (by simp)
  have front := name.trans opening
  refine ensures_bind front.toReaches (sound.functionRest _ _ (front.ends ends) (by omega)) ?_
  intro lambda finish _ taken
  have takes := front.trans taken.toTakes
  have := taken.shorter
  exact ensures_pure takes.toReaches ⟨takes, by omega, taken.shaped⟩

theorem block_sound (sound : Sound fuel) :
    Reads (fuel + 1) 21 (block (fuel + 1)) fun start body finish =>
      start.Takes (Stmt.writtenEach body ++ [.symbol .rightBrace]) finish ∧
        finish.rest.length < start.rest.length ∧ Stmt.WellShapedEach body := by
  intro start ends enough
  unfold block
  refine ensures_bind (.refl start) (sound.declarations start ends (by omega)) ?_
  rintro body middle reached ⟨taken, shaped⟩
  refine ensures_expect reached fun closingFound => ?_
  obtain ⟨closing, _⟩ := Cursor.takes_advance (reached.ends ends) closingFound (by simp)
  have takes := taken.trans closing
  have := taken.length
  exact ensures_pure takes.toReaches ⟨takes, by omega, shaped⟩

theorem declarations_sound (sound : Sound fuel) :
    Reads (fuel + 1) 20 (declarations (fuel + 1)) fun start body finish =>
      start.Takes (Stmt.writtenEach body) finish ∧ Stmt.WellShapedEach body := by
  intro start ends enough
  unfold declarations
  refine ensures_nextIs (fun _ => ?_) (fun _ => ?_)
  · exact ensures_atEnd (ensures_pure (.refl start) ⟨.refl start, trivial⟩)
  · apply ensures_atEnd
    split
    · exact ensures_pure (.refl start) ⟨.refl start, trivial⟩
    · next more =>
      refine ensures_bind (.refl start)
        (sound.declaration start ends (by simpa using more) (by omega)) ?_
      rintro first middle reached ⟨firstTaken, shorter, firstShaped⟩
      refine ensures_bind reached (sound.declarations _ (reached.ends ends) (by omega)) ?_
      rintro rest finish _ ⟨restTaken, restShaped⟩
      have takes := firstTaken.trans restTaken
      refine ensures_pure takes.toReaches
        ⟨?_, Stmt.wellShapedEach_append firstShaped restShaped⟩
      rw [Stmt.writtenEach_append]
      exact takes

theorem methods_sound (sound : Sound fuel) :
    Reads (fuel + 1) 2 (methods (fuel + 1)) fun start methods finish =>
      start.Takes (Method.writtenEach methods) finish ∧ Method.WellShapedEach methods := by
  intro start ends enough
  unfold methods
  refine ensures_nextIs (fun _ => ?_) (fun _ => ?_)
  · exact ensures_atEnd (ensures_pure (.refl start) ⟨.refl start, trivial⟩)
  · apply ensures_atEnd
    split
    · exact ensures_pure (.refl start) ⟨.refl start, trivial⟩
    · refine ensures_bind (.refl start) (sound.function _ start ends (by omega)) ?_
      rintro first middle reached ⟨firstTaken, shorter, firstShaped⟩
      refine ensures_bind reached (sound.methods _ (reached.ends ends) (by omega)) ?_
      rintro rest finish _ ⟨restTaken, restShaped⟩
      have takes := firstTaken.trans restTaken
      exact ensures_pure takes.toReaches ⟨takes, firstShaped, restShaped⟩

theorem classDecl_sound (sound : Sound fuel) :
    Reads (fuel + 1) 1 (classDecl (fuel + 1)) (·.TakesRest (.keyword .kwClass)) := by
  intro start ends enough
  unfold classDecl
  refine ensures_identifier (.refl start) fun text nameFound => ?_
  obtain ⟨name, _⟩ := Cursor.takes_advance ends nameFound (by simp)
  -- The body is read in the same way with and without a superclass.
  have body : ∀ (superclass : Option (Superclass Unit)) (before : List Token.Kind) here,
      start.Takes before here → here.rest.length < start.rest.length →
      before = Name.written ⟨text, start.next.line⟩ ::
        (superclass.map fun parent => [.symbol .less, parent.name.written]).getD [] →
      Ensures start here (do
        let _ ← expect .leftBrace .beforeClassBody
        let methods ← methods fuel
        let _ ← expect .rightBrace .afterClassBody
        pure (.classDecl ⟨text, start.next.line⟩ superclass methods))
        (start.TakesRest (.keyword .kwClass)) := by
    rintro superclass _ here front shorter rfl
    refine ensures_expect front.toReaches fun openingFound => ?_
    obtain ⟨opening, _⟩ := Cursor.takes_advance (front.ends ends) openingFound (by simp)
    have front := front.trans opening
    refine ensures_bind front.toReaches (sound.methods _ (front.ends ends) (by omega)) ?_
    rintro methods middle _ ⟨methodsTaken, shaped⟩
    have front := front.trans methodsTaken
    refine ensures_expect front.toReaches fun closingFound => ?_
    obtain ⟨closing, _⟩ := Cursor.takes_advance (front.ends ends) closingFound (by simp)
    have takes := front.trans closing
    refine ensures_pure takes.toReaches ⟨⟨_, rfl, takes.congr ?_⟩, shaped⟩
    simp
  refine ensures_accept (fun lessFound => ?_) (fun _ => ?_)
  · obtain ⟨less, _⟩ := Cursor.takes_advance (name.ends ends) lessFound (by simp)
    have front := name.trans less
    refine ensures_identifier front.toReaches fun parentText parentFound => ?_
    obtain ⟨parent, _⟩ := Cursor.takes_advance (front.ends ends) parentFound (by simp)
    exact body (some ⟨⟨parentText, _⟩, ()⟩) _ _ (front.trans parent) (by omega) rfl
  · exact body none _ _ name (by omega) rfl

theorem declared_sound (sound : Sound fuel) :
    Reads (fuel + 1) 18 (declared (fuel + 1)) (·.TakesStmt) := by
  intro start ends enough
  unfold declared
  apply ensures_next
  split
  case h_1 found =>
    obtain ⟨keyword, shorter⟩ := Cursor.takes_advance ends found (by simp)
    apply ensures_advance
    exact (sound.classDecl _ (keyword.ends ends) (by omega)).rebase keyword.toReaches
      fun stmt finish _ taken => taken.whole keyword shorter
  case h_2 found =>
    obtain ⟨keyword, shorter⟩ := Cursor.takes_advance ends found (by simp)
    apply ensures_advance
    refine ensures_bind keyword.toReaches (sound.function _ _ (keyword.ends ends) (by omega)) ?_
    rintro ⟨name, lambda⟩ finish _ ⟨taken, _, shaped⟩
    have takes := keyword.trans taken
    have := taken.length
    exact ensures_pure takes.toReaches ⟨takes, by omega, shaped⟩
  case h_3 found =>
    obtain ⟨keyword, shorter⟩ := Cursor.takes_advance ends found (by simp)
    apply ensures_advance
    exact (sound.varDecl _ (keyword.ends ends) (by omega)).rebase keyword.toReaches
      fun stmt finish _ taken => taken.1.whole keyword shorter
  case h_4 =>
    exact (sound.statement start ends (by omega)).rebase (.refl start)
      fun stmt finish _ taken => taken.1

theorem declaration_sound (sound : Sound fuel) (start : Cursor) (ends : start.Ends)
    (more : start.rest ≠ []) (enough : 32 * start.rest.length + 19 ≤ fuel + 1) :
    Ensures start start (declaration (fuel + 1)) fun stmt finish =>
      start.Takes (Stmt.writtenEach stmt.toList) finish ∧
        finish.rest.length < start.rest.length ∧ Stmt.WellShapedEach stmt.toList := by
  have ensured := sound.declared start ends (by omega)
  unfold declaration
  unfold Ensures at ensured ⊢
  dsimp only
  cases outcome : declared fuel start with
  | done stmt finish =>
    rw [outcome] at ensured
    obtain ⟨reached, taken⟩ := ensured
    refine ⟨reached, ?_, taken.shorter, taken.shaped, trivial⟩
    rw [Option.toList_some, Stmt.writtenEach, Stmt.writtenEach, List.append_nil]
    exact taken.toTakes
  | failed error finish =>
    rw [outcome] at ensured
    have recovered : start.Reaches (finish.recover start error) :=
      ensured.trans (Cursor.reaches_recover finish start error)
    refine ⟨recovered, .ofErrors recovered ?_, ?_, trivial⟩
    · have := ensured.errors.length_le
      intro same
      have := congrArg List.length same
      simp only [Cursor.recover, List.length_cons] at this
      omega
    · exact Cursor.length_resumed more ensured.length
  | outOfFuel =>
    rw [outcome] at ensured
    exact ensured

theorem program_sound (sound : Sound fuel) :
    Reads (fuel + 1) 20 (program (fuel + 1)) fun start stmts finish =>
      start.Takes (Stmt.writtenEach stmts) finish ∧ Stmt.WellShapedEach stmts ∧
        finish.rest = [] := by
  intro start ends enough
  unfold program
  apply ensures_atEnd
  split
  · next ended =>
    exact ensures_pure (.refl start) ⟨.refl start, trivial, by simpa using ended⟩
  · next more =>
    refine ensures_bind (.refl start)
      (sound.declaration start ends (by simpa using more) (by omega)) ?_
    rintro first middle reached ⟨firstTaken, shorter, firstShaped⟩
    refine ensures_bind reached (sound.program _ (reached.ends ends) (by omega)) ?_
    rintro rest finish _ ⟨restTaken, restShaped, ended⟩
    have takes := firstTaken.trans restTaken
    refine ensures_pure takes.toReaches
      ⟨?_, Stmt.wellShapedEach_append firstShaped restShaped, ended⟩
    rw [Stmt.writtenEach_append]
    exact takes

/-- Every rule keeps its contract, by induction on the fuel: a rule hands its fuel on, less one, to
rules that it is ranked above or that have fewer tokens to read. -/
theorem sound (fuel : Nat) : Sound fuel := by
  induction fuel with
  | zero =>
    constructor
    case declaration =>
      intro start _ _ enough
      omega
    case assignments =>
      intro pending start _ _ _ enough
      omega
    case leveled | operand =>
      intro level start _ enough
      have := level.tightness_bounds
      omega
    all_goals
      intros
      exact Reads.zero (by decide)
  | succ fuel ih =>
    exact
      { program := program_sound ih
        declaration := declaration_sound ih
        declared := declared_sound ih
        classDecl := classDecl_sound ih
        methods := methods_sound ih
        function := function_sound ih
        functionRest := functionRest_sound ih
        parameters := parameters_sound ih
        varDecl := varDecl_sound ih
        block := block_sound ih
        declarations := declarations_sound ih
        statement := statement_sound ih
        forLoop := forLoop_sound ih
        forInitializer := forInitializer_sound ih
        clause := clause_sound ih
        branch := branch_sound ih
        whileLoop := whileLoop_sound ih
        returnValue := returnValue_sound ih
        expressionStatement := expressionStatement_sound ih
        assignments := assignments_sound ih
        expression := expression_sound ih
        operands := operands_sound ih
        furtherOperands := furtherOperands_sound ih
        assignmentExpression := assignmentExpression_sound ih
        ternary := ternary_sound ih
        leveled := leveled_sound ih
        operations := operations_sound ih
        operand := operand_sound ih
        unary := unary_sound ih
        calls := calls_sound ih
        arguments := arguments_sound ih
        primary := primary_sound ih }

end Reader

/-! ## Programs -/

theorem Cursor.ofTokens_ends (tokens : List Token) : (Cursor.ofTokens tokens).Ends := by
  unfold Cursor.Ends Cursor.ofTokens
  cases found : tokens.find? (·.kind = .endOfInput) with
  | none => rfl
  | some token => simpa using List.find?_some found

namespace Program

/-- The whole input is read, whatever it is. -/
theorem parse_ensures (tokens : List Token) :
    Reader.Ensures (.ofTokens tokens) (.ofTokens tokens)
      (Reader.program (fuelFor tokens.length)) fun stmts finish =>
        (Cursor.ofTokens tokens).Takes (Stmt.writtenEach stmts) finish ∧
          Stmt.WellShapedEach stmts ∧ finish.rest = [] := by
  refine (Reader.sound _).program _ (Cursor.ofTokens_ends tokens) ?_
  have : (Cursor.ofTokens tokens).rest.length ≤ tokens.length :=
    (List.takeWhile_sublist _).length_le
  unfold fuelFor
  omega

/-- A parse comes to its end, with the program that the tokens spell, or it gives back nothing but
errors. -/
theorem parse_cases (tokens : List Token) :
    (∃ stmts, ∃ finish : Cursor, parse tokens = ⟨stmts, finish.errors.reverse⟩ ∧
      (Cursor.ofTokens tokens).Takes (Stmt.writtenEach stmts) finish ∧
        Stmt.WellShapedEach stmts ∧ finish.rest = []) ∨
      ∃ error, ∃ finish : Cursor, parse tokens = ⟨[], (error :: finish.errors).reverse⟩ := by
  have ensured := parse_ensures tokens
  unfold Reader.Ensures at ensured
  unfold parse
  split at ensured
  · next stmts finish found =>
    rw [found]
    exact .inl ⟨stmts, finish, rfl, ensured.2⟩
  · next error finish found =>
    rw [found]
    exact .inr ⟨error, finish, rfl⟩
  · exact ensured.elim

/-- What a parse gives back has the shape of the grammar, also where it found errors. -/
theorem wellShaped_parse (tokens : List Token) :
    Stmt.WellShapedEach (parse tokens).statements := by
  obtain ⟨stmts, finish, parsed, _, shaped, _⟩ | ⟨error, finish, parsed⟩ := parse_cases tokens
  · rw [parsed]
    exact shaped
  · rw [parsed]
    trivial

/-- The names in what a parse gives back are names among the tokens, also where it found errors. -/
theorem named_parse {tokens : List Token} {text : String}
    (member : .identifier text ∈ Stmt.writtenEach (parse tokens).statements) :
    ∃ token ∈ tokens, token.kind = .identifier text := by
  obtain ⟨stmts, finish, parsed, taken, _⟩ | ⟨error, finish, parsed⟩ := parse_cases tokens
  · rw [parsed] at member
    obtain ⟨token, there, spelled⟩ := taken.named member
    exact ⟨token, (List.takeWhile_sublist _).subset there, spelled⟩
  · rw [parsed] at member
    cases member

/-- The numbers in what a parse gives back are values of numbers among the tokens, also where it found
errors. -/
theorem numbered_parse {tokens : List Token} {lexeme : String} {value : Number}
    (member : .number lexeme value ∈ Stmt.writtenEach (parse tokens).statements) :
    ∃ token ∈ tokens, ∃ written, token.kind = .number written value := by
  obtain ⟨stmts, finish, parsed, taken, _⟩ | ⟨error, finish, parsed⟩ := parse_cases tokens
  · rw [parsed] at member
    obtain ⟨token, there, spelled⟩ := taken.numbered member
    exact ⟨token, (List.takeWhile_sublist _).subset there, spelled⟩
  · rw [parsed] at member
    cases member

/-- A parse without errors gives back a program of the grammar that is written with the tokens
that were read, up to semicolons and to the spelling of numbers. -/
theorem parse_sound {tokens : List Token} (accepted : (parse tokens).errors = []) :
    Token.Kind.significant (Stmt.writtenEach (parse tokens).statements) =
        Token.Kind.significant ((tokens.takeWhile (·.kind ≠ .endOfInput)).map (·.kind)) ∧
      Stmt.WellShapedEach (parse tokens).statements := by
  refine ⟨?_, wellShaped_parse tokens⟩
  obtain ⟨stmts, finish, parsed, taken, _, ended⟩ | ⟨error, finish, parsed⟩ := parse_cases tokens
  · rw [parsed] at accepted ⊢
    obtain ⟨front, whole, spelled⟩ := taken.taken (List.reverse_eq_nil_iff.mp accepted)
    rw [ended, List.append_nil] at whole
    rw [← whole] at spelled
    exact spelled.symm
  · rw [parsed] at accepted
    simp at accepted

theorem parse_sound_chain :
    let tokens : List Token := [⟨.identifier "a", 1⟩, ⟨.symbol .equal, 1⟩, ⟨.keyword .kwThis, 1⟩,
      ⟨.symbol .dot, 1⟩, ⟨.identifier "b", 1⟩, ⟨.symbol .equal, 1⟩, ⟨.identifier "c", 1⟩,
      ⟨.symbol .star, 1⟩, ⟨.symbol .minus, 1⟩, ⟨.identifier "d", 1⟩, ⟨.endOfInput, 2⟩]
    (parse tokens).errors = [] ∧
      Token.Kind.significant (Stmt.writtenEach (parse tokens).statements) =
        Token.Kind.significant ((tokens.takeWhile (·.kind ≠ .endOfInput)).map (·.kind)) ∧
      Stmt.WellShapedEach (parse tokens).statements :=
  ⟨by decide, parse_sound (by decide)⟩

end Program

end Lox
