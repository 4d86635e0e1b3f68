import Lox.Tree

/-!
# Syntax errors

What the grammar demanded and did not find, each at the token found in its place.
-/

namespace Lox

/-- The two kinds of named function declarations. -/
inductive FunctionRole where
  | function
  | method
  deriving DecidableEq, Repr

def FunctionRole.text : FunctionRole → String
  | function => "function"
  | method => "method"

/-- What a name is missing for. -/
inductive NameRole where
  | classDecl
  | superclass
  | declared (role : FunctionRole)
  | parameter
  | variableDecl
  | property
  | superclassMethod
  deriving DecidableEq, Repr

def NameRole.text : NameRole → String
  | classDecl => "class name"
  | superclass => "superclass name"
  | declared role => role.text ++ " name"
  | parameter => "parameter name"
  | variableDecl => "variable name"
  | property => "property name after '.'"
  | superclassMethod => "superclass method name"

/-- Where a symbol is missing. -/
inductive Place where
  | beforeClassBody | afterClassBody
  | afterFunctionName (role : FunctionRole) | afterParameters
  | beforeFunctionBody (role : FunctionRole) | afterFun
  | afterFor | afterLoopCondition | afterForClauses
  | afterIf | afterIfCondition | afterWhile | afterCondition
  | afterBlock | afterThenBranch | afterArguments | afterSuper | afterExpression
  deriving DecidableEq, Repr

def Place.text : Place → String
  | beforeClassBody => "before class body"
  | afterClassBody => "after class body"
  | afterFunctionName role => "after " ++ role.text ++ " name"
  | afterParameters => "after parameters"
  | beforeFunctionBody role => "before " ++ role.text ++ " body"
  | afterFun => "after 'fun'"
  | afterFor => "after 'for'"
  | afterLoopCondition => "after loop condition"
  | afterForClauses => "after for clauses"
  | afterIf => "after 'if'"
  | afterIfCondition => "after if condition"
  | afterWhile => "after 'while'"
  | afterCondition => "after condition"
  | afterBlock => "after block"
  | afterThenBranch => "after then branch of '?:'"
  | afterArguments => "after arguments"
  | afterSuper => "after 'super'"
  | afterExpression => "after expression"

/-- The operators that stand between two operands. -/
inductive InfixOperator where
  | logical (operator : LogicalOperator)
  | binary (operator : BinaryOperator)
  deriving DecidableEq, Repr

def InfixOperator.lexeme : InfixOperator → String
  | logical operator => operator.keyword.lexeme
  | binary operator => operator.symbol.lexeme

inductive SyntaxProblem where
  | expectedName (role : NameRole)
  | expectedSymbol (symbol : Symbol) (place : Place)
  | expectedExpression
  | expectedThenBranch
  | missingLeftOperand (operator : InfixOperator)
  | invalidAssignmentTarget
  | tooManyParameters
  | tooManyArguments
  deriving DecidableEq, Repr

def SyntaxProblem.message : SyntaxProblem → String
  | expectedName role => "Expected " ++ role.text ++ "."
  | expectedSymbol symbol place => "Expected '" ++ symbol.lexeme ++ "' " ++ place.text ++ "."
  | expectedExpression => "Expected expression."
  | expectedThenBranch => "Expected expression for the then branch of '?:'."
  | missingLeftOperand operator => "Missing left operand for '" ++ operator.lexeme ++ "'."
  | invalidAssignmentTarget => "Invalid assignment target."
  | tooManyParameters => "Can't have more than 255 parameters."
  | tooManyArguments => "Can't have more than 255 arguments."

/-- A problem, at the token where it showed. -/
structure SyntaxError where
  problem : SyntaxProblem
  token : Token
  deriving DecidableEq, Repr

end Lox
