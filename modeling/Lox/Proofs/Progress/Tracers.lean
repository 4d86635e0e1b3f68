import Lox.Tree.Parse

/-!
# Reading by index

Every rule of the grammar once more, for a parser that has all the tokens and the index of the one at the
front. It reads a token by its index only, and that there is none at an index is an outcome of its own.

Such a parser leaves a trail: the indices at which it read a token, those to which it moved on, and the
calls of `declaration`, in the order in which they were made.
-/

namespace Lox

/-- Where a parse by index stands. -/
structure Pointer where
  tokens : List Token
  /-- The index of the token at the front. -/
  current : Nat
  /-- The errors so far, the latest first. -/
  errors : List SyntaxError

/-- How a reader by index ends. -/
inductive Landed (α : Type) where
  | done (value : α) (finish : Pointer)
  | failed (error : SyntaxError) (finish : Pointer)
  | outOfFuel
  /-- There is no token at an index. -/
  | outOfRange

/-- A call of `declaration`: where it was made, and how it ended. -/
structure Call where
  start : Pointer
  outcome : Landed (Option (Stmt Unit))

/-- Where a reader has been. -/
structure Trail where
  reads : List Nat
  moves : List Nat
  calls : List Call

namespace Trail

def append (trail further : Trail) : Trail :=
  ⟨trail.reads ++ further.reads, trail.moves ++ further.moves, trail.calls ++ further.calls⟩

instance : Append Trail := ⟨append⟩

end Trail

/-- A reader's outcome, and where it has been. -/
structure Traced (α : Type) where
  outcome : Landed α
  trail : Trail

/-- A reader by index that leaves a trail. -/
def Tracer (α : Type) := Pointer → Traced α

namespace Tracer

variable {α β : Type}

protected def pure (value : α) : Tracer α := fun pointer => ⟨.done value pointer, ⟨[], [], []⟩⟩

protected def bind (tracer : Tracer α) (continuation : α → Tracer β) : Tracer β := fun pointer =>
  let first := tracer pointer
  match first.outcome with
  | .done value middle =>
    let rest := continuation value middle
    ⟨rest.outcome, first.trail ++ rest.trail⟩
  | .failed error middle => ⟨.failed error middle, first.trail⟩
  | .outOfFuel => ⟨.outOfFuel, first.trail⟩
  | .outOfRange => ⟨.outOfRange, first.trail⟩

instance : Monad Tracer where
  pure := Tracer.pure
  bind := Tracer.bind

theorem bind_of_done {tracer : Tracer α} {further : α → Tracer β} {pointer middle : Pointer} {value : α}
    {trail : Trail} (ran : tracer pointer = ⟨.done value middle, trail⟩) :
    (tracer >>= further) pointer =
      ⟨(further value middle).outcome, trail ++ (further value middle).trail⟩ := by
  change Tracer.bind tracer further pointer = _
  rw [Tracer.bind, ran]

/-- What is done about an error. -/
def handle (tracer : Tracer α) (handler : SyntaxError → Tracer α) : Tracer α := fun pointer =>
  let first := tracer pointer
  match first.outcome with
  | .failed error middle =>
    let rest := handler error middle
    ⟨rest.outcome, first.trail ++ rest.trail⟩
  | outcome => ⟨outcome, first.trail⟩

/-! ## Tokens -/

def outOfFuel : Tracer α := fun _ => ⟨.outOfFuel, ⟨[], [], []⟩⟩

/-- The token at an index. -/
def tokenAt (index : Nat) : Tracer Token := fun pointer =>
  ⟨match pointer.tokens[index]? with
    | some token => .done token pointer
    | none => .outOfRange, ⟨[index], [], []⟩⟩

/-- The index of the token at the front. -/
def current : Tracer Nat := fun pointer => ⟨.done pointer.current pointer, ⟨[], [], []⟩⟩

def moveTo (index : Nat) : Tracer Unit := fun pointer =>
  ⟨.done () { pointer with current := index }, ⟨[], [index], []⟩⟩

/-- The token at the front, which stays there. -/
def next : Tracer Token := do
  let index ← current
  tokenAt index

/-- The token before the one at the front. At the first token that is this token itself. -/
def previous : Tracer Token := do
  let index ← current
  tokenAt (index - 1)

def atEnd : Tracer Bool := do
  let token ← next
  pure (decide (token.kind = .endOfInput))

/-- Moves on, unless at the end, and gives the token before the one that is then at the front. -/
def advance : Tracer Token := do
  if ← atEnd then previous
  else
    let index ← current
    moveTo (index + 1)
    previous

/-- Whether a symbol is at the front. -/
def nextIs (symbol : Symbol) : Tracer Bool := do
  if ← atEnd then pure false
  else
    let token ← next
    pure (decide (token.kind = .symbol symbol))

/-- Takes a symbol if it is at the front. -/
def accept (symbol : Symbol) : Tracer Bool := do
  if ← nextIs symbol then
    let _ ← advance
    pure true
  else pure false

/-! ## Errors -/

/-- Fails at a given token. -/
def failAt (problem : SyntaxProblem) (token : Token) : Tracer α :=
  fun pointer => ⟨.failed ⟨problem, token⟩ pointer, ⟨[], [], []⟩⟩

/-- Fails at the token at the front. -/
def fail (problem : SyntaxProblem) : Tracer α := do
  let token ← next
  failAt problem token

def keep (error : SyntaxError) : Tracer Unit := fun pointer =>
  ⟨.done () { pointer with errors := error :: pointer.errors }, ⟨[], [], []⟩⟩

/-- Records a problem at the token at the front and goes on. -/
def record (problem : SyntaxProblem) : Tracer Unit := do
  let token ← next
  keep ⟨problem, token⟩

/-- Takes a symbol, which has to be at the front. -/
def expect (symbol : Symbol) (place : Place) : Tracer Token := do
  if ← nextIs symbol then advance else fail (.expectedSymbol symbol place)

/-- Takes an identifier, which has to be at the front. -/
def identifier (role : NameRole) : Tracer Name := do
  match (← next).kind with
  | .identifier text =>
    let token ← advance
    pure ⟨text, token.line⟩
  | _ => fail (.expectedName role)

def target (expr : Expr Unit) (equals : Token) : Tracer (Target Unit) :=
  match expr with
  | .reference name () => pure (.name name ())
  | .property object name => pure (.property object name)
  | _ => failAt .invalidAssignmentTarget equals

def terminator : Tracer Unit := do
  let _ ← accept .semicolon
  pure ()

def returnsNothing (line : Nat) : Tracer Bool := do
  let token ← next
  pure (decide (token.kind = .symbol .semicolon) || decide (token.kind = .symbol .rightBrace)
    || decide (token.kind = .endOfInput) || decide (token.line ≠ line))

/-! ## Recovery -/

/-- Moves on until a boundary: past a semicolon, on a new line, or at a token that is a boundary itself. -/
def skip : Nat → Tracer Unit
  | 0 => outOfFuel
  | fuel + 1 => do
    if ← atEnd then pure ()
    else
      let before ← previous
      let token ← next
      if before.kind = .symbol .semicolon || before.line < token.line || token.kind.isBoundary then
        pure ()
      else
        let _ ← advance
        skip fuel

/-- A boundary is found before the tokens run out. -/
def skipAll : Tracer Unit := fun pointer => skip (pointer.tokens.length - pointer.current) pointer

/-- Goes on after an error in a declaration that started at an index. The token at the front is given up,
unless it is a closing brace and not the declaration's first token. -/
def synchronize (start : Nat) : Tracer Unit := do
  let index ← current
  let stays ← if index = start then pure false else nextIs .rightBrace
  if stays then skipAll
  else
    let _ ← advance
    skipAll

/-- A call of `declaration` goes on the trail in front of what is done in it. -/
def called (tracer : Tracer (Option (Stmt Unit))) : Tracer (Option (Stmt Unit)) := fun start =>
  let inside := tracer start
  ⟨inside.outcome, ⟨[], [], [⟨start, inside.outcome⟩]⟩ ++ inside.trail⟩

/-! ## The grammar -/

def parameters : Nat → Nat → Tracer (List Name)
  | 0, _ => outOfFuel
  | fuel + 1, count => do
    if Reader.maximumArity ≤ count then record .tooManyParameters
    let parameter ← identifier .parameter
    if ← accept .comma then
      let rest ← parameters fuel (count + 1)
      pure (parameter :: rest)
    else pure [parameter]

mutual

def program : Nat → Tracer (List (Stmt Unit))
  | 0 => outOfFuel
  | fuel + 1 => do
    if ← atEnd then pure []
    else
      let first ← declaration fuel
      let rest ← program fuel
      pure (first.toList ++ rest)

def declaration : Nat → Tracer (Option (Stmt Unit))
  | 0 => outOfFuel
  | fuel + 1 => called do
    let start ← current
    handle (do
      let stmt ← declared fuel
      pure (some stmt)) fun error => do
      keep error
      synchronize start
      pure none

def declared : Nat → Tracer (Stmt Unit)
  | 0 => outOfFuel
  | fuel + 1 => do
    match (← next).kind with
    | .keyword .kwClass =>
      let _ ← advance
      classDecl fuel
    | .keyword .kwFun =>
      let _ ← advance
      let ⟨name, lambda⟩ ← function fuel .function
      pure (.funDecl name lambda)
    | .keyword .kwVar =>
      let _ ← advance
      varDecl fuel
    | _ => statement fuel

def classDecl : Nat → Tracer (Stmt Unit)
  | 0 => outOfFuel
  | fuel + 1 => do
    let name ← identifier .classDecl
    if ← accept .less then
      let parent ← identifier .superclass
      let _ ← expect .leftBrace .beforeClassBody
      let methods ← methods fuel
      let _ ← expect .rightBrace .afterClassBody
      pure (.classDecl name (some ⟨parent, ()⟩) methods)
    else
      let _ ← expect .leftBrace .beforeClassBody
      let methods ← methods fuel
      let _ ← expect .rightBrace .afterClassBody
      pure (.classDecl name none methods)

def methods : Nat → Tracer (List (Method Unit))
  | 0 => outOfFuel
  | fuel + 1 => do
    if (← nextIs .rightBrace) || (← atEnd) then pure []
    else
      let first ← function fuel .method
      let rest ← methods fuel
      pure (first :: rest)

def function : Nat → FunctionRole → Tracer (Method Unit)
  | 0, _ => outOfFuel
  | fuel + 1, role => do
    let name ← identifier (.declared role)
    let _ ← expect .leftParen (.afterFunctionName role)
    let lambda ← functionRest fuel role
    pure ⟨name, lambda⟩

def functionRest : Nat → FunctionRole → Tracer (Lambda Unit)
  | 0, _ => outOfFuel
  | fuel + 1, role => do
    let parameters ← if ← nextIs .rightParen then pure [] else parameters fuel 0
    let _ ← expect .rightParen .afterParameters
    let _ ← expect .leftBrace (.beforeFunctionBody role)
    let body ← block fuel
    pure ⟨parameters, body⟩

def varDecl : Nat → Tracer (Stmt Unit)
  | 0 => outOfFuel
  | fuel + 1 => do
    let name ← identifier .variableDecl
    if ← accept .equal then
      let initializer ← expression fuel
      terminator
      pure (.varDecl name (some initializer))
    else
      terminator
      pure (.varDecl name none)

def block : Nat → Tracer (List (Stmt Unit))
  | 0 => outOfFuel
  | fuel + 1 => do
    let body ← declarations fuel
    let _ ← expect .rightBrace .afterBlock
    pure body

def declarations : Nat → Tracer (List (Stmt Unit))
  | 0 => outOfFuel
  | fuel + 1 => do
    if (← nextIs .rightBrace) || (← atEnd) then pure []
    else
      let first ← declaration fuel
      let rest ← declarations fuel
      pure (first.toList ++ rest)

def statement : Nat → Tracer (Stmt Unit)
  | 0 => outOfFuel
  | fuel + 1 => do
    let token ← next
    match token.kind with
    | .keyword .kwFor =>
      let _ ← advance
      forLoop fuel
    | .keyword .kwIf =>
      let _ ← advance
      branch fuel
    | .keyword .kwWhile =>
      let _ ← advance
      whileLoop fuel
    | .keyword .kwReturn =>
      let _ ← advance
      returnValue fuel token.line
    | .keyword .kwBreak =>
      let _ ← advance
      terminator
      pure (.breakLoop token.line)
    | .keyword .kwContinue =>
      let _ ← advance
      terminator
      pure (.continueLoop token.line)
    | .symbol .leftBrace =>
      let _ ← advance
      let body ← block fuel
      pure (.block body)
    | _ => expressionStatement fuel

def forLoop : Nat → Tracer (Stmt Unit)
  | 0 => outOfFuel
  | fuel + 1 => do
    let _ ← expect .leftParen .afterFor
    let initializer ← forInitializer fuel
    let condition ← clause fuel .semicolon
    let _ ← expect .semicolon .afterLoopCondition
    let increment ← clause fuel .rightParen
    let _ ← expect .rightParen .afterForClauses
    let body ← statement fuel
    pure (.forLoop initializer condition increment body)

def forInitializer : Nat → Tracer (Option (Stmt Unit))
  | 0 => outOfFuel
  | fuel + 1 => do
    match (← next).kind with
    | .symbol .semicolon =>
      let _ ← advance
      pure none
    | .keyword .kwVar =>
      let _ ← advance
      let initializer ← varDecl fuel
      pure (some initializer)
    | _ =>
      let initializer ← expressionStatement fuel
      pure (some initializer)

def clause : Nat → Symbol → Tracer (Option (Expr Unit))
  | 0, _ => outOfFuel
  | fuel + 1, ending => do
    if ← nextIs ending then pure none
    else
      let expr ← expression fuel
      pure (some expr)

def branch : Nat → Tracer (Stmt Unit)
  | 0 => outOfFuel
  | fuel + 1 => do
    let _ ← expect .leftParen .afterIf
    let condition ← expression fuel
    let _ ← expect .rightParen .afterIfCondition
    let thenBranch ← statement fuel
    if (← next).kind = .keyword .kwElse then
      let _ ← advance
      let elseBranch ← statement fuel
      pure (.branch condition thenBranch (some elseBranch))
    else pure (.branch condition thenBranch none)

def whileLoop : Nat → Tracer (Stmt Unit)
  | 0 => outOfFuel
  | fuel + 1 => do
    let _ ← expect .leftParen .afterWhile
    let condition ← expression fuel
    let _ ← expect .rightParen .afterCondition
    let body ← statement fuel
    pure (.whileLoop condition body)

def returnValue : Nat → Nat → Tracer (Stmt Unit)
  | 0, _ => outOfFuel
  | fuel + 1, line => do
    if ← returnsNothing line then
      terminator
      pure (.returnValue line none)
    else
      let value ← expression fuel
      terminator
      pure (.returnValue line (some value))

def expressionStatement : Nat → Tracer (Stmt Unit)
  | 0 => outOfFuel
  | fuel + 1 => do
    let first ← ternary fuel
    if ← nextIs .equal then
      let (targets, value) ← assignments fuel first
      terminator
      pure (Reader.assignment targets value)
    else
      let expr ← operands fuel first
      terminator
      pure (.expression expr)

def assignments : Nat → Expr Unit → Tracer (List (Target Unit) × Expr Unit)
  | 0, _ => outOfFuel
  | fuel + 1, pending => do
    let equals ← advance
    let first ← target pending equals
    let following ← ternary fuel
    if ← nextIs .equal then
      let (targets, value) ← assignments fuel following
      pure (first :: targets, value)
    else pure ([first], following)

def expression : Nat → Tracer (Expr Unit)
  | 0 => outOfFuel
  | fuel + 1 => do
    let first ← assignmentExpression fuel
    operands fuel first

def operands : Nat → Expr Unit → Tracer (Expr Unit)
  | 0, _ => outOfFuel
  | fuel + 1, first => do
    if ← nextIs .comma then
      let rest ← furtherOperands fuel
      pure (.comma (first :: rest))
    else pure first

def furtherOperands : Nat → Tracer (List (Expr Unit))
  | 0 => outOfFuel
  | fuel + 1 => do
    if ← accept .comma then
      let operand ← assignmentExpression fuel
      let rest ← furtherOperands fuel
      pure (operand :: rest)
    else pure []

def assignmentExpression : Nat → Tracer (Expr Unit)
  | 0 => outOfFuel
  | fuel + 1 => do
    let expr ← ternary fuel
    let equals ← next
    if ← accept .equal then
      let value ← assignmentExpression fuel
      match expr with
      | .reference name () => pure (.assign name () value)
      | _ => failAt .invalidAssignmentTarget equals
    else pure expr

def ternary : Nat → Tracer (Expr Unit)
  | 0 => outOfFuel
  | fuel + 1 => do
    let condition ← leveled fuel .or
    let question ← next
    if ← accept .question then
      if ← nextIs .colon then fail .expectedThenBranch
      else
        let thenBranch ← ternary fuel
        let _ ← expect .colon .afterThenBranch
        let elseBranch ← ternary fuel
        pure (.conditional question.line condition thenBranch elseBranch)
    else pure condition

def leveled : Nat → Level → Tracer (Expr Unit)
  | 0, _ => outOfFuel
  | fuel + 1, level => do
    let first ← operand fuel level
    operations fuel level first

def operations : Nat → Level → Expr Unit → Tracer (Expr Unit)
  | 0, _, _ => outOfFuel
  | fuel + 1, level, left => do
    let token ← next
    match level.operator? token.kind with
    | none => pure left
    | some operator =>
      let _ ← advance
      let right ← operand fuel level
      operations fuel level (operator.apply token.line left right)

def operand : Nat → Level → Tracer (Expr Unit)
  | 0, _ => outOfFuel
  | fuel + 1, level =>
    match level.tighter? with
    | some tighter => leveled fuel tighter
    | none => unary fuel

def unary : Nat → Tracer (Expr Unit)
  | 0 => outOfFuel
  | fuel + 1 => do
    let token ← next
    match token.kind with
    | .symbol .bang =>
      let _ ← advance
      let operand ← unary fuel
      pure (.unary .not token.line operand)
    | .symbol .minus =>
      let _ ← advance
      let operand ← unary fuel
      pure (.unary .negate token.line operand)
    | _ =>
      let callee ← primary fuel
      calls fuel callee

def calls : Nat → Expr Unit → Tracer (Expr Unit)
  | 0, _ => outOfFuel
  | fuel + 1, callee => do
    match (← next).kind with
    | .symbol .leftParen =>
      let _ ← advance
      let arguments ← if ← nextIs .rightParen then pure [] else arguments fuel 0
      let paren ← expect .rightParen .afterArguments
      calls fuel (.call callee paren.line arguments)
    | .symbol .dot =>
      let _ ← advance
      let name ← identifier .property
      calls fuel (.property callee name)
    | _ => pure callee

def arguments : Nat → Nat → Tracer (List (Expr Unit))
  | 0, _ => outOfFuel
  | fuel + 1, count => do
    if Reader.maximumArity ≤ count then record .tooManyArguments
    let argument ← assignmentExpression fuel
    if ← accept .comma then
      let rest ← arguments fuel (count + 1)
      pure (argument :: rest)
    else pure [argument]

def primary : Nat → Tracer (Expr Unit)
  | 0 => outOfFuel
  | fuel + 1 => do
    let token ← next
    match token.kind with
    | .keyword .kwFalse =>
      let _ ← advance
      pure (.literal (.boolean false))
    | .keyword .kwTrue =>
      let _ ← advance
      pure (.literal (.boolean true))
    | .keyword .kwNil =>
      let _ ← advance
      pure (.literal .nil)
    | .number _ value =>
      let _ ← advance
      pure (.literal (.number value))
    | .text contents =>
      let _ ← advance
      pure (.literal (.text contents))
    | .keyword .kwThis =>
      let _ ← advance
      pure (.thisInstance token.line ())
    | .keyword .kwSuper =>
      let _ ← advance
      let _ ← expect .dot .afterSuper
      let method ← identifier .superclassMethod
      pure (.superMethod token.line () method)
    | .identifier text =>
      let _ ← advance
      pure (.reference ⟨text, token.line⟩ ())
    | .symbol .leftParen =>
      let _ ← advance
      let inner ← expression fuel
      let _ ← expect .rightParen .afterExpression
      pure (.group inner)
    | .keyword .kwFun =>
      let _ ← advance
      let _ ← expect .leftParen .afterFun
      let lambda ← functionRest fuel .function
      pure (.function lambda)
    | kind =>
      match InfixOperator.ofKind? kind with
      | some operator => fail (.missingLeftOperand operator)
      | none => fail .expectedExpression

end

end Tracer

end Lox
