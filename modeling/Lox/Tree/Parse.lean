import Lox.Tree.Cursor

/-!
# Parsing

Programs are read by recursive descent, one reader for each rule of the grammar:

```
program     = declaration* end
declaration = class | "fun" function | var | statement
class       = "class" NAME ("<" NAME)? "{" function* "}"
function    = NAME "(" parameters? ")" block
var         = "var" NAME ("=" expression)? ";"?
statement   = for | if | while | return | break | continue | block | assignments | operands
for         = "for" "(" (var | statement | ";") expression? ";" expression? ")" statement
assignments = ternary ("=" ternary)+ ";"?
operands    = ternary ("," assignment)* ";"?
expression  = assignment ("," assignment)*
assignment  = NAME "=" assignment | ternary
ternary     = or ("?" ternary ":" ternary)?
unary       = ("!" | "-") unary | call
call        = primary ("(" arguments? ")" | "." NAME)*
```

Between `ternary` and `unary` lie the levels of the binary operators. A semicolon ends a statement
where it stands, and is never demanded.

A declaration that fails leaves its error behind, and reading goes on at the next place that looks
like the start of a statement. Every rule takes at least one token before it comes to itself again,
so the fuel that `parse` starts with, a fixed amount for each token, is never used up.
-/

namespace Lox

/-! ## Levels of binary operators -/

/-- The levels, from the loosest to the tightest. -/
inductive Level where
  | or | and | equality | comparison | term | factor
  deriving DecidableEq, Repr

namespace Level

/-- The level of the operands of a level's operators, except for the left operand, which may be of
the level itself. The operands of the tightest level are unary. -/
def tighter? : Level → Option Level
  | or => some and
  | and => some equality
  | equality => some comparison
  | comparison => some term
  | term => some factor
  | factor => none

/-- The operator of this level that a kind of token is. -/
def operator? : Level → Token.Kind → Option InfixOperator
  | or, .keyword .kwOr => some (.logical .or)
  | and, .keyword .kwAnd => some (.logical .and)
  | equality, .symbol .bangEqual => some (.binary .notEqual)
  | equality, .symbol .equalEqual => some (.binary .equal)
  | comparison, .symbol .greater => some (.binary .greater)
  | comparison, .symbol .greaterEqual => some (.binary .greaterOrEqual)
  | comparison, .symbol .less => some (.binary .less)
  | comparison, .symbol .lessEqual => some (.binary .lessOrEqual)
  | term, .symbol .minus => some (.binary .subtract)
  | term, .symbol .plus => some (.binary .add)
  | factor, .symbol .slash => some (.binary .divide)
  | factor, .symbol .star => some (.binary .multiply)
  | factor, .symbol .caret => some (.binary .power)
  | factor, .symbol .percent => some (.binary .modulo)
  | _, _ => none

def all : List Level := [or, and, equality, comparison, term, factor]

end Level

/-- The operator that a kind of token is, of whatever level. -/
def InfixOperator.ofKind? (kind : Token.Kind) : Option InfixOperator :=
  Level.all.findSome? (·.operator? kind)

/-- The operation of two operands. -/
def InfixOperator.apply (operator : InfixOperator) (line : Nat) (left right : Expr Unit) :
    Expr Unit :=
  match operator with
  | .logical operator => .logical operator line left right
  | .binary operator => .binary operator line left right

/-! ## Recovery -/

/-- Whether a token of this kind can only stand at the start of a statement, or closes a block. -/
def Token.Kind.isBoundary : Token.Kind → Bool
  | .keyword k =>
    match k with
    | .kwClass | .kwFun | .kwVar | .kwFor | .kwIf | .kwWhile | .kwReturn | .kwBreak
    | .kwContinue => true
    | _ => false
  | .symbol .rightBrace => true
  | _ => false

namespace Cursor

/-- The tokens from the next boundary on: after a semicolon, on a new line, or before a token that
is a boundary itself. -/
def skipFrom (previous : Token) : List Token → List Token
  | [] => []
  | token :: rest =>
    if previous.kind = .symbol .semicolon || previous.line < token.line
        || token.kind.isBoundary then
      token :: rest
    else skipFrom token rest

/-- The tokens to go on with after an error, given those at the start of the failed declaration.
The token at the front is given up, unless it closes a block that began before the declaration; so
a declaration that failed at its first token has taken that one. -/
def resumed (start rest : List Token) : List Token :=
  match rest with
  | [] => []
  | token :: more =>
    if token.kind = .symbol .rightBrace ∧ rest.length ≠ start.length then rest
    else skipFrom token more

/-- The cursor to go on with after an error in the declaration that started at `start`. -/
def recover (cursor start : Cursor) (error : SyntaxError) : Cursor :=
  ⟨resumed start.rest cursor.rest, cursor.stop, error :: cursor.errors⟩

end Cursor

/-! ## The grammar -/

namespace Reader

/-- The most parameters and the most arguments a function can have; more are an error that does
not stop the parse. -/
def maximumArity : Nat := 255

/-- What the expression before an equals sign becomes, in a chain of assignments. -/
def target (expr : Expr Unit) (equals : Token) : Reader (Target Unit) :=
  match expr with
  | .reference name () => pure (.name name ())
  | .property object name => pure (.property object name)
  | _ => failAt .invalidAssignmentTarget equals

/-- The end of a statement: a semicolon, if there is one. -/
def terminator : Reader Unit := do
  let _ ← accept .semicolon
  pure ()

/-- Whether a return statement ends at its keyword: its value has to start on the same line. -/
def returnsNothing (line : Nat) : Reader Bool := do
  let token ← next
  pure (decide (token.kind = .symbol .semicolon) || decide (token.kind = .symbol .rightBrace)
    || decide (token.kind = .endOfInput) || decide (token.line ≠ line))

/-- The statement that a chain of assignments is. -/
def assignment (targets : List (Target Unit)) (value : Expr Unit) : Stmt Unit :=
  match targets with
  | [.property object name] => .set object name value
  | _ => .assign targets value

/-- `NAME ("," NAME)*`, after `count` parameters. -/
def parameters : Nat → Nat → Reader (List Name)
  | 0, _ => outOfFuel
  | fuel + 1, count => do
    if maximumArity ≤ count then record .tooManyParameters
    let parameter ← identifier .parameter
    if ← accept .comma then
      let rest ← parameters fuel (count + 1)
      pure (parameter :: rest)
    else pure [parameter]

mutual

/-- Every declaration up to the end of the input. -/
def program : Nat → Reader (List (Stmt Unit))
  | 0 => outOfFuel
  | fuel + 1 => do
    if ← atEnd then pure []
    else
      let first ← declaration fuel
      let rest ← program fuel
      pure (first.toList ++ rest)

/-- A declaration, or nothing where one failed: its error is recorded and passed over. -/
def declaration : Nat → Reader (Option (Stmt Unit))
  | 0 => outOfFuel
  | fuel + 1 => fun start =>
    match declared fuel start with
    | .done stmt cursor => .done (some stmt) cursor
    | .failed error cursor => .done none (cursor.recover start error)
    | .outOfFuel => .outOfFuel

/-- `class | "fun" function | var | statement` -/
def declared : Nat → Reader (Stmt Unit)
  | 0 => outOfFuel
  | fuel + 1 => do
    match (← next).kind with
    | .keyword .kwClass =>
      let _ ← advance
      classDecl fuel
    | .keyword .kwFun =>
      let _ ← advance
      let ⟨name, lambda⟩ ← function fuel .function
      pure (.funDecl name lambda)
    | .keyword .kwVar =>
      let _ ← advance
      varDecl fuel
    | _ => statement fuel

/-- A class declaration after its keyword. -/
def classDecl : Nat → Reader (Stmt Unit)
  | 0 => outOfFuel
  | fuel + 1 => do
    let name ← identifier .classDecl
    if ← accept .less then
      let parent ← identifier .superclass
      let _ ← expect .leftBrace .beforeClassBody
      let methods ← methods fuel
      let _ ← expect .rightBrace .afterClassBody
      pure (.classDecl name (some ⟨parent, ()⟩) methods)
    else
      let _ ← expect .leftBrace .beforeClassBody
      let methods ← methods fuel
      let _ ← expect .rightBrace .afterClassBody
      pure (.classDecl name none methods)

/-- `function*`, up to a closing brace. -/
def methods : Nat → Reader (List (Method Unit))
  | 0 => outOfFuel
  | fuel + 1 => do
    if (← nextIs .rightBrace) || (← atEnd) then pure []
    else
      let first ← function fuel .method
      let rest ← methods fuel
      pure (first :: rest)

/-- `NAME "(" parameters? ")" block` -/
def function : Nat → FunctionRole → Reader (Method Unit)
  | 0, _ => outOfFuel
  | fuel + 1, role => do
    let name ← identifier (.declared role)
    let _ ← expect .leftParen (.afterFunctionName role)
    let lambda ← functionRest fuel role
    pure ⟨name, lambda⟩

/-- `parameters? ")" block` -/
def functionRest : Nat → FunctionRole → Reader (Lambda Unit)
  | 0, _ => outOfFuel
  | fuel + 1, role => do
    let parameters ← if ← nextIs .rightParen then pure [] else parameters fuel 0
    let _ ← expect .rightParen .afterParameters
    let _ ← expect .leftBrace (.beforeFunctionBody role)
    let body ← block fuel
    pure ⟨parameters, body⟩

/-- A variable declaration after its keyword. -/
def varDecl : Nat → Reader (Stmt Unit)
  | 0 => outOfFuel
  | fuel + 1 => do
    let name ← identifier .variableDecl
    if ← accept .equal then
      let initializer ← expression fuel
      terminator
      pure (.varDecl name (some initializer))
    else
      terminator
      pure (.varDecl name none)

/-- A block after its opening brace. -/
def block : Nat → Reader (List (Stmt Unit))
  | 0 => outOfFuel
  | fuel + 1 => do
    let body ← declarations fuel
    let _ ← expect .rightBrace .afterBlock
    pure body

/-- `declaration*`, up to a closing brace. -/
def declarations : Nat → Reader (List (Stmt Unit))
  | 0 => outOfFuel
  | fuel + 1 => do
    if (← nextIs .rightBrace) || (← atEnd) then pure []
    else
      let first ← declaration fuel
      let rest ← declarations fuel
      pure (first.toList ++ rest)

/-- Every statement that is not a declaration. -/
def statement : Nat → Reader (Stmt Unit)
  | 0 => outOfFuel
  | fuel + 1 => do
    let token ← next
    match token.kind with
    | .keyword .kwFor =>
      let _ ← advance
      forLoop fuel
    | .keyword .kwIf =>
      let _ ← advance
      branch fuel
    | .keyword .kwWhile =>
      let _ ← advance
      whileLoop fuel
    | .keyword .kwReturn =>
      let _ ← advance
      returnValue fuel token.line
    | .keyword .kwBreak =>
      let _ ← advance
      terminator
      pure (.breakLoop token.line)
    | .keyword .kwContinue =>
      let _ ← advance
      terminator
      pure (.continueLoop token.line)
    | .symbol .leftBrace =>
      let _ ← advance
      let body ← block fuel
      pure (.block body)
    | _ => expressionStatement fuel

/-- A `for` statement after its keyword. -/
def forLoop : Nat → Reader (Stmt Unit)
  | 0 => outOfFuel
  | fuel + 1 => do
    let _ ← expect .leftParen .afterFor
    let initializer ← forInitializer fuel
    let condition ← clause fuel .semicolon
    let _ ← expect .semicolon .afterLoopCondition
    let increment ← clause fuel .rightParen
    let _ ← expect .rightParen .afterForClauses
    let body ← statement fuel
    pure (.forLoop initializer condition increment body)

/-- The first clause of a `for` statement, with its semicolon. -/
def forInitializer : Nat → Reader (Option (Stmt Unit))
  | 0 => outOfFuel
  | fuel + 1 => do
    match (← next).kind with
    | .symbol .semicolon =>
      let _ ← advance
      pure none
    | .keyword .kwVar =>
      let _ ← advance
      let initializer ← varDecl fuel
      pure (some initializer)
    | _ =>
      let initializer ← expressionStatement fuel
      pure (some initializer)

/-- A clause of a `for` statement that is left out if its end comes at once. -/
def clause : Nat → Symbol → Reader (Option (Expr Unit))
  | 0, _ => outOfFuel
  | fuel + 1, ending => do
    if ← nextIs ending then pure none
    else
      let expr ← expression fuel
      pure (some expr)

/-- An `if` statement after its keyword. -/
def branch : Nat → Reader (Stmt Unit)
  | 0 => outOfFuel
  | fuel + 1 => do
    let _ ← expect .leftParen .afterIf
    let condition ← expression fuel
    let _ ← expect .rightParen .afterIfCondition
    let thenBranch ← statement fuel
    if (← next).kind = .keyword .kwElse then
      let _ ← advance
      let elseBranch ← statement fuel
      pure (.branch condition thenBranch (some elseBranch))
    else pure (.branch condition thenBranch none)

/-- A `while` statement after its keyword. -/
def whileLoop : Nat → Reader (Stmt Unit)
  | 0 => outOfFuel
  | fuel + 1 => do
    let _ ← expect .leftParen .afterWhile
    let condition ← expression fuel
    let _ ← expect .rightParen .afterCondition
    let body ← statement fuel
    pure (.whileLoop condition body)

/-- A `return` statement after its keyword on the given line. -/
def returnValue : Nat → Nat → Reader (Stmt Unit)
  | 0, _ => outOfFuel
  | fuel + 1, line => do
    if ← returnsNothing line then
      terminator
      pure (.returnValue line none)
    else
      let value ← expression fuel
      terminator
      pure (.returnValue line (some value))

/-- `assignments | operands` -/
def expressionStatement : Nat → Reader (Stmt Unit)
  | 0 => outOfFuel
  | fuel + 1 => do
    let first ← ternary fuel
    if ← nextIs .equal then
      let (targets, value) ← assignments fuel first
      terminator
      pure (assignment targets value)
    else
      let expr ← operands fuel first
      terminator
      pure (.expression expr)

/-- `("=" ternary)+` after the first target: all targets, and the value. -/
def assignments : Nat → Expr Unit → Reader (List (Target Unit) × Expr Unit)
  | 0, _ => outOfFuel
  | fuel + 1, pending => do
    let equals ← advance
    let first ← target pending equals
    let following ← ternary fuel
    if ← nextIs .equal then
      let (targets, value) ← assignments fuel following
      pure (first :: targets, value)
    else pure ([first], following)

/-- `assignment ("," assignment)*` -/
def expression : Nat → Reader (Expr Unit)
  | 0 => outOfFuel
  | fuel + 1 => do
    let first ← assignmentExpression fuel
    operands fuel first

/-- `("," assignment)*` after the first operand, which is the whole expression if none follow. -/
def operands : Nat → Expr Unit → Reader (Expr Unit)
  | 0, _ => outOfFuel
  | fuel + 1, first => do
    if ← nextIs .comma then
      let rest ← furtherOperands fuel
      pure (.comma (first :: rest))
    else pure first

/-- `("," assignment)*` -/
def furtherOperands : Nat → Reader (List (Expr Unit))
  | 0 => outOfFuel
  | fuel + 1 => do
    if ← accept .comma then
      let operand ← assignmentExpression fuel
      let rest ← furtherOperands fuel
      pure (operand :: rest)
    else pure []

/-- `NAME "=" assignment | ternary` -/
def assignmentExpression : Nat → Reader (Expr Unit)
  | 0 => outOfFuel
  | fuel + 1 => do
    let expr ← ternary fuel
    let equals ← next
    if ← accept .equal then
      let value ← assignmentExpression fuel
      match expr with
      | .reference name () => pure (.assign name () value)
      | _ => failAt .invalidAssignmentTarget equals
    else pure expr

/-- `or ("?" ternary ":" ternary)?` -/
def ternary : Nat → Reader (Expr Unit)
  | 0 => outOfFuel
  | fuel + 1 => do
    let condition ← leveled fuel .or
    let question ← next
    if ← accept .question then
      if ← nextIs .colon then fail .expectedThenBranch
      else
        let thenBranch ← ternary fuel
        let _ ← expect .colon .afterThenBranch
        let elseBranch ← ternary fuel
        pure (.conditional question.line condition thenBranch elseBranch)
    else pure condition

/-- Operands of the next level with this level's operators between them, taken from the left. -/
def leveled : Nat → Level → Reader (Expr Unit)
  | 0, _ => outOfFuel
  | fuel + 1, level => do
    let first ← operand fuel level
    operations fuel level first

/-- The operations of a level on what stands to the left of them. -/
def operations : Nat → Level → Expr Unit → Reader (Expr Unit)
  | 0, _, _ => outOfFuel
  | fuel + 1, level, left => do
    let token ← next
    match level.operator? token.kind with
    | none => pure left
    | some operator =>
      let _ ← advance
      let right ← operand fuel level
      operations fuel level (operator.apply token.line left right)

/-- An operand of a level's operators. -/
def operand : Nat → Level → Reader (Expr Unit)
  | 0, _ => outOfFuel
  | fuel + 1, level =>
    match level.tighter? with
    | some tighter => leveled fuel tighter
    | none => unary fuel

/-- `("!" | "-") unary | call` -/
def unary : Nat → Reader (Expr Unit)
  | 0 => outOfFuel
  | fuel + 1 => do
    let token ← next
    match token.kind with
    | .symbol .bang =>
      let _ ← advance
      let operand ← unary fuel
      pure (.unary .not token.line operand)
    | .symbol .minus =>
      let _ ← advance
      let operand ← unary fuel
      pure (.unary .negate token.line operand)
    | _ =>
      let callee ← primary fuel
      calls fuel callee

/-- `("(" arguments? ")" | "." NAME)*` on what stands to the left of them. -/
def calls : Nat → Expr Unit → Reader (Expr Unit)
  | 0, _ => outOfFuel
  | fuel + 1, callee => do
    match (← next).kind with
    | .symbol .leftParen =>
      let _ ← advance
      let arguments ← if ← nextIs .rightParen then pure [] else arguments fuel 0
      let paren ← expect .rightParen .afterArguments
      calls fuel (.call callee paren.line arguments)
    | .symbol .dot =>
      let _ ← advance
      let name ← identifier .property
      calls fuel (.property callee name)
    | _ => pure callee

/-- `assignment ("," assignment)*`, after `count` arguments. -/
def arguments : Nat → Nat → Reader (List (Expr Unit))
  | 0, _ => outOfFuel
  | fuel + 1, count => do
    if maximumArity ≤ count then record .tooManyArguments
    let argument ← assignmentExpression fuel
    if ← accept .comma then
      let rest ← arguments fuel (count + 1)
      pure (argument :: rest)
    else pure [argument]

/-- Literals, names, and whatever brings its own brackets. -/
def primary : Nat → Reader (Expr Unit)
  | 0 => outOfFuel
  | fuel + 1 => do
    let token ← next
    match token.kind with
    | .keyword .kwFalse =>
      let _ ← advance
      pure (.literal (.boolean false))
    | .keyword .kwTrue =>
      let _ ← advance
      pure (.literal (.boolean true))
    | .keyword .kwNil =>
      let _ ← advance
      pure (.literal .nil)
    | .number _ value =>
      let _ ← advance
      pure (.literal (.number value))
    | .text contents =>
      let _ ← advance
      pure (.literal (.text contents))
    | .keyword .kwThis =>
      let _ ← advance
      pure (.thisInstance token.line ())
    | .keyword .kwSuper =>
      let _ ← advance
      let _ ← expect .dot .afterSuper
      let method ← identifier .superclassMethod
      pure (.superMethod token.line () method)
    | .identifier text =>
      let _ ← advance
      pure (.reference ⟨text, token.line⟩ ())
    | .symbol .leftParen =>
      let _ ← advance
      let inner ← expression fuel
      let _ ← expect .rightParen .afterExpression
      pure (.group inner)
    | .keyword .kwFun =>
      let _ ← advance
      let _ ← expect .leftParen .afterFun
      let lambda ← functionRest fuel .function
      pure (.function lambda)
    | kind =>
      match InfixOperator.ofKind? kind with
      | some operator => fail (.missingLeftOperand operator)
      | none => fail .expectedExpression

end

end Reader

/-! ## Programs -/

/-- What a parse gives: the declarations that are well-formed, and the errors of the others in the
order they were found. -/
structure Program where
  statements : List (Stmt Unit)
  errors : List SyntaxError

namespace Program

/-- Enough fuel for so many tokens. -/
def fuelFor (tokens : Nat) : Nat := 32 * (tokens + 1)

/-- The program that some tokens spell, up to the first end of input. -/
def parse (tokens : List Token) : Program :=
  match Reader.program (fuelFor tokens.length) (Cursor.ofTokens tokens) with
  | .done statements cursor => ⟨statements, cursor.errors.reverse⟩
  | .failed error cursor => ⟨[], (error :: cursor.errors).reverse⟩
  | .outOfFuel => ⟨[], []⟩

end Program

end Lox
