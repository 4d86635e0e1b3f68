import Lox.Tree.Parse

/-!
# Trees as they are written

Every statement is written with the semicolon that may end it, so the written form of a program is
the longest of its spellings. What a semicolon may be left out of, and how a number is spelled, is
compared away by `significant`.
-/

namespace Lox

variable {β : Type}

/-! ## Leaves and operators -/

def Literal.written : Literal → Token.Kind
  | nil => .keyword .kwNil
  | boolean true => .keyword .kwTrue
  | boolean false => .keyword .kwFalse
  | number value => .number (String.ofList value.tokenForm) value
  | text contents => .text contents

def InfixOperator.written : InfixOperator → Token.Kind
  | logical operator => .keyword operator.keyword
  | binary operator => .symbol operator.symbol

def Name.written (name : Name) : Token.Kind := .identifier name.text

/-- Names with commas between them. -/
def Name.writtenEach (names : List Name) : List Token.Kind :=
  (names.map Name.written).intersperse (.symbol .comma)

/-! ## Expressions and statements -/

mutual

def Expr.written : Expr β → List Token.Kind
  | .literal value => [value.written]
  | .group inner => .symbol .leftParen :: (inner.written ++ [.symbol .rightParen])
  | .unary operator _ operand => .symbol operator.symbol :: operand.written
  | .binary operator _ left right => left.written ++ .symbol operator.symbol :: right.written
  | .logical operator _ left right => left.written ++ .keyword operator.keyword :: right.written
  | .comma operands => Expr.writtenEach operands
  | .conditional _ condition thenBranch elseBranch =>
    condition.written ++ .symbol .question :: (thenBranch.written ++ .symbol .colon ::
      elseBranch.written)
  | .reference name _ => [name.written]
  | .assign name _ value => name.written :: .symbol .equal :: value.written
  | .property object name => object.written ++ [.symbol .dot, name.written]
  | .call callee _ arguments =>
    callee.written ++ .symbol .leftParen :: (Expr.writtenEach arguments ++ [.symbol .rightParen])
  | .function lambda => .keyword .kwFun :: .symbol .leftParen :: lambda.written
  | .thisInstance _ _ => [.keyword .kwThis]
  | .superMethod _ _ method => [.keyword .kwSuper, .symbol .dot, method.written]

/-- Expressions with commas between them. -/
def Expr.writtenEach : List (Expr β) → List Token.Kind
  | [] => []
  | expr :: rest => expr.written ++ Expr.writtenAfterEach rest

/-- Expressions with a comma before each of them. -/
def Expr.writtenAfterEach : List (Expr β) → List Token.Kind
  | [] => []
  | expr :: rest => .symbol .comma :: (expr.written ++ Expr.writtenAfterEach rest)

/-- An expression that may be missing, with what is written before it if it is there. -/
def Expr.writtenPart (before : List Token.Kind) : Option (Expr β) → List Token.Kind
  | none => []
  | some expr => before ++ expr.written

def Target.written : Target β → List Token.Kind
  | .name name _ => [name.written]
  | .property object name => object.written ++ [.symbol .dot, name.written]

/-- Targets with an equals sign after each of them. -/
def Target.writtenEach : List (Target β) → List Token.Kind
  | [] => []
  | target :: rest => target.written ++ .symbol .equal :: Target.writtenEach rest

def Stmt.written : Stmt β → List Token.Kind
  | .expression value => value.written ++ [.symbol .semicolon]
  | .varDecl name initializer =>
    .keyword .kwVar :: name.written ::
      (Expr.writtenPart [.symbol .equal] initializer ++ [.symbol .semicolon])
  | .assign targets value => Target.writtenEach targets ++ value.written ++ [.symbol .semicolon]
  | .set object name value =>
    object.written ++ .symbol .dot :: name.written :: .symbol .equal ::
      (value.written ++ [.symbol .semicolon])
  | .block body => .symbol .leftBrace :: (Stmt.writtenEach body ++ [.symbol .rightBrace])
  | .branch condition thenBranch elseBranch =>
    .keyword .kwIf :: .symbol .leftParen :: (condition.written ++ .symbol .rightParen ::
      (thenBranch.written ++ Stmt.writtenPart [.keyword .kwElse] elseBranch))
  | .whileLoop condition body =>
    .keyword .kwWhile :: .symbol .leftParen :: (condition.written ++ .symbol .rightParen ::
      body.written)
  | .forLoop initializer condition increment body =>
    .keyword .kwFor :: .symbol .leftParen :: (Stmt.writtenInitializer initializer ++
      (Expr.writtenPart [] condition ++ .symbol .semicolon ::
        (Expr.writtenPart [] increment ++ .symbol .rightParen :: body.written)))
  | .breakLoop _ => [.keyword .kwBreak, .symbol .semicolon]
  | .continueLoop _ => [.keyword .kwContinue, .symbol .semicolon]
  | .funDecl name lambda =>
    .keyword .kwFun :: name.written :: .symbol .leftParen :: lambda.written
  | .returnValue _ value =>
    .keyword .kwReturn :: (Expr.writtenPart [] value ++ [.symbol .semicolon])
  | .classDecl name superclass methods =>
    .keyword .kwClass :: name.written ::
      ((superclass.map fun parent => [.symbol .less, parent.name.written]).getD [] ++
        .symbol .leftBrace :: (Method.writtenEach methods ++ [.symbol .rightBrace]))

def Stmt.writtenEach : List (Stmt β) → List Token.Kind
  | [] => []
  | stmt :: rest => stmt.written ++ Stmt.writtenEach rest

/-- A statement that may be missing, with what is written before it if it is there. -/
def Stmt.writtenPart (before : List Token.Kind) : Option (Stmt β) → List Token.Kind
  | none => []
  | some stmt => before ++ stmt.written

/-- The first clause of a `for` statement, which leaves its semicolon behind if it is missing. -/
def Stmt.writtenInitializer : Option (Stmt β) → List Token.Kind
  | none => [.symbol .semicolon]
  | some stmt => stmt.written

/-- Parameters and body, after the opening parenthesis. -/
def Lambda.written : Lambda β → List Token.Kind
  | ⟨parameters, body⟩ =>
    Name.writtenEach parameters ++ .symbol .rightParen :: .symbol .leftBrace ::
      (Stmt.writtenEach body ++ [.symbol .rightBrace])

def Method.written : Method β → List Token.Kind
  | ⟨name, lambda⟩ => name.written :: .symbol .leftParen :: lambda.written

def Method.writtenEach : List (Method β) → List Token.Kind
  | [] => []
  | method :: rest => method.written ++ Method.writtenEach rest

end

theorem Expr.writtenAfterEach_of_ne_nil {exprs : List (Expr β)} (some : exprs ≠ []) :
    Expr.writtenAfterEach exprs = .symbol .comma :: Expr.writtenEach exprs := by
  cases exprs with
  | nil => exact absurd rfl some
  | cons first rest => rfl

theorem Name.writtenEach_cons {names : List Name} (name : Name) (some : names ≠ []) :
    Name.writtenEach (name :: names) =
      name.written :: .symbol .comma :: Name.writtenEach names := by
  cases names with
  | nil => exact absurd rfl some
  | cons first rest => rfl

theorem Stmt.writtenEach_append (front back : List (Stmt β)) :
    Stmt.writtenEach (front ++ back) = Stmt.writtenEach front ++ Stmt.writtenEach back := by
  induction front with
  | nil => rfl
  | cons stmt rest ih => simp [Stmt.writtenEach, ih]

/-! ## No written form contains the end of the input -/

theorem Literal.written_ne_endOfInput (value : Literal) : value.written ≠ .endOfInput := by
  rcases value with _ | (_ | _) | _ | _ <;> exact nofun

theorem Name.endOfInput_not_mem_writtenEach (names : List Name) :
    .endOfInput ∉ Name.writtenEach names := by
  induction names with
  | nil => exact nofun
  | cons name rest ih =>
    cases rest with
    | nil => simp [Name.writtenEach, Name.written]
    | cons second more =>
      rw [Name.writtenEach_cons name (List.cons_ne_nil _ _)]
      simp [Name.written, ih]

mutual

theorem Expr.endOfInput_not_mem_written (expr : Expr β) : .endOfInput ∉ expr.written := by
  cases expr with
  | literal value => simp [Expr.written, value.written_ne_endOfInput.symm]
  | group inner => simp [Expr.written, inner.endOfInput_not_mem_written]
  | unary _ _ operand => simp [Expr.written, operand.endOfInput_not_mem_written]
  | binary _ _ left right | logical _ _ left right =>
    simp [Expr.written, left.endOfInput_not_mem_written, right.endOfInput_not_mem_written]
  | comma operands => exact Expr.endOfInput_not_mem_writtenEach operands
  | conditional _ condition thenBranch elseBranch =>
    simp [Expr.written, condition.endOfInput_not_mem_written,
      thenBranch.endOfInput_not_mem_written, elseBranch.endOfInput_not_mem_written]
  | assign name _ value => simp [Expr.written, Name.written, value.endOfInput_not_mem_written]
  | property object name => simp [Expr.written, Name.written, object.endOfInput_not_mem_written]
  | call callee _ arguments =>
    simp [Expr.written, callee.endOfInput_not_mem_written,
      Expr.endOfInput_not_mem_writtenEach arguments]
  | function lambda => simp [Expr.written, lambda.endOfInput_not_mem_written]
  | reference _ _ | thisInstance _ _ | superMethod _ _ _ => simp [Expr.written, Name.written]

theorem Expr.endOfInput_not_mem_writtenEach (exprs : List (Expr β)) :
    .endOfInput ∉ Expr.writtenEach exprs := by
  cases exprs with
  | nil => simp [Expr.writtenEach]
  | cons expr rest =>
    simp [Expr.writtenEach, expr.endOfInput_not_mem_written,
      Expr.endOfInput_not_mem_writtenAfterEach rest]

theorem Expr.endOfInput_not_mem_writtenAfterEach (exprs : List (Expr β)) :
    .endOfInput ∉ Expr.writtenAfterEach exprs := by
  cases exprs with
  | nil => simp [Expr.writtenAfterEach]
  | cons expr rest =>
    simp [Expr.writtenAfterEach, expr.endOfInput_not_mem_written,
      Expr.endOfInput_not_mem_writtenAfterEach rest]

theorem Expr.endOfInput_not_mem_writtenPart (before : List Token.Kind)
    (goesOn : .endOfInput ∉ before) (expr : Option (Expr β)) :
    .endOfInput ∉ Expr.writtenPart before expr := by
  cases expr with
  | none => simp [Expr.writtenPart]
  | some expr => simp [Expr.writtenPart, goesOn, expr.endOfInput_not_mem_written]

theorem Target.endOfInput_not_mem_written (target : Target β) : .endOfInput ∉ target.written := by
  cases target with
  | name _ _ => simp [Target.written, Name.written]
  | property object _ => simp [Target.written, Name.written, object.endOfInput_not_mem_written]

theorem Target.endOfInput_not_mem_writtenEach (targets : List (Target β)) :
    .endOfInput ∉ Target.writtenEach targets := by
  cases targets with
  | nil => simp [Target.writtenEach]
  | cons target rest =>
    simp [Target.writtenEach, target.endOfInput_not_mem_written,
      Target.endOfInput_not_mem_writtenEach rest]

theorem Stmt.endOfInput_not_mem_written (stmt : Stmt β) : .endOfInput ∉ stmt.written := by
  cases stmt with
  | expression value => simp [Stmt.written, value.endOfInput_not_mem_written]
  | varDecl _ initializer =>
    have := Expr.endOfInput_not_mem_writtenPart [.symbol .equal] (by simp) initializer
    simp [Stmt.written, Name.written, this]
  | assign targets value =>
    simp [Stmt.written, Target.endOfInput_not_mem_writtenEach targets,
      value.endOfInput_not_mem_written]
  | set object _ value =>
    simp [Stmt.written, Name.written, object.endOfInput_not_mem_written,
      value.endOfInput_not_mem_written]
  | block body => simp [Stmt.written, Stmt.endOfInput_not_mem_writtenEach body]
  | branch condition thenBranch elseBranch =>
    have := Stmt.endOfInput_not_mem_writtenPart [.keyword .kwElse] (by simp) elseBranch
    simp [Stmt.written, condition.endOfInput_not_mem_written,
      thenBranch.endOfInput_not_mem_written, this]
  | whileLoop condition body =>
    simp [Stmt.written, condition.endOfInput_not_mem_written, body.endOfInput_not_mem_written]
  | forLoop initializer condition increment body =>
    have first := Stmt.endOfInput_not_mem_writtenInitializer initializer
    have second := Expr.endOfInput_not_mem_writtenPart [] (by simp) condition
    have third := Expr.endOfInput_not_mem_writtenPart [] (by simp) increment
    simp [Stmt.written, first, second, third, body.endOfInput_not_mem_written]
  | breakLoop _ | continueLoop _ => simp [Stmt.written]
  | funDecl _ lambda => simp [Stmt.written, Name.written, lambda.endOfInput_not_mem_written]
  | returnValue _ value =>
    have := Expr.endOfInput_not_mem_writtenPart [] (by simp) value
    simp [Stmt.written, this]
  | classDecl _ superclass methods =>
    cases superclass <;>
      simp [Stmt.written, Name.written, Method.endOfInput_not_mem_writtenEach methods]

theorem Stmt.endOfInput_not_mem_writtenEach (stmts : List (Stmt β)) :
    .endOfInput ∉ Stmt.writtenEach stmts := by
  cases stmts with
  | nil => simp [Stmt.writtenEach]
  | cons stmt rest =>
    simp [Stmt.writtenEach, stmt.endOfInput_not_mem_written,
      Stmt.endOfInput_not_mem_writtenEach rest]

theorem Stmt.endOfInput_not_mem_writtenPart (before : List Token.Kind)
    (goesOn : .endOfInput ∉ before) (stmt : Option (Stmt β)) :
    .endOfInput ∉ Stmt.writtenPart before stmt := by
  cases stmt with
  | none => simp [Stmt.writtenPart]
  | some stmt => simp [Stmt.writtenPart, goesOn, stmt.endOfInput_not_mem_written]

theorem Stmt.endOfInput_not_mem_writtenInitializer (stmt : Option (Stmt β)) :
    .endOfInput ∉ Stmt.writtenInitializer stmt := by
  cases stmt with
  | none => simp [Stmt.writtenInitializer]
  | some stmt => simp [Stmt.writtenInitializer, stmt.endOfInput_not_mem_written]

theorem Lambda.endOfInput_not_mem_written (lambda : Lambda β) : .endOfInput ∉ lambda.written := by
  obtain ⟨parameters, body⟩ := lambda
  simp [Lambda.written, Name.endOfInput_not_mem_writtenEach parameters,
    Stmt.endOfInput_not_mem_writtenEach body]

theorem Method.endOfInput_not_mem_written (method : Method β) : .endOfInput ∉ method.written := by
  obtain ⟨name, lambda⟩ := method
  simp [Method.written, Name.written, lambda.endOfInput_not_mem_written]

theorem Method.endOfInput_not_mem_writtenEach (methods : List (Method β)) :
    .endOfInput ∉ Method.writtenEach methods := by
  cases methods with
  | nil => simp [Method.writtenEach]
  | cons method rest =>
    simp [Method.writtenEach, method.endOfInput_not_mem_written,
      Method.endOfInput_not_mem_writtenEach rest]

end

/-! ## What counts of a written form -/

/-- The kind without the spelling of a number. -/
def Token.Kind.plain : Token.Kind → Token.Kind
  | .number _ value => .number "" value
  | kind => kind

/-- The kinds without semicolons, numbers by their values alone. -/
def Token.Kind.significant (kinds : List Token.Kind) : List Token.Kind :=
  (kinds.map plain).filter (· ≠ .symbol .semicolon)

namespace Token.Kind

@[simp] theorem significant_nil : significant [] = [] := rfl

@[simp] theorem significant_append (front back : List Token.Kind) :
    significant (front ++ back) = significant front ++ significant back := by
  simp [significant]

theorem significant_cons (kind : Token.Kind) (rest : List Token.Kind) :
    significant (kind :: rest) = significant [kind] ++ significant rest :=
  significant_append [kind] rest

@[simp] theorem significant_semicolon (rest : List Token.Kind) :
    significant (.symbol .semicolon :: rest) = significant rest := by
  rw [significant_cons]
  rfl

theorem identifier_mem_significant {kinds : List Token.Kind} {text : String} :
    .identifier text ∈ significant kinds ↔ .identifier text ∈ kinds := by
  simp only [significant, List.mem_filter, List.mem_map]
  constructor
  · rintro ⟨⟨kind, member, same⟩, _⟩
    cases kind <;> cases same
    exact member
  · intro member
    exact ⟨⟨.identifier text, member, rfl⟩, by simp⟩

theorem number_mem_significant {kinds : List Token.Kind} {value : Number} :
    .number "" value ∈ significant kinds ↔ ∃ lexeme, .number lexeme value ∈ kinds := by
  simp only [significant, List.mem_filter, List.mem_map]
  constructor
  · rintro ⟨⟨kind, member, same⟩, _⟩
    cases kind <;> cases same
    exact ⟨_, member⟩
  · rintro ⟨lexeme, member⟩
    exact ⟨⟨.number lexeme value, member, rfl⟩, by simp⟩

end Token.Kind

end Lox
