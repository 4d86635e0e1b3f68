import Lox.Token

/-!
# Syntax trees

The statements and expressions of a program. Every node keeps as much of its tokens as a message
or a listing of the tree needs: names and operators with their lines.

The trees have a parameter: what is known about each *occurrence* of a name that is looked up when
the program runs. A tree fresh from its tokens knows nothing (`Unit`); once names are resolved,
each occurrence carries its binding.
-/

namespace Lox

/-! ## Leaves -/

/-- An identifier where it is written. -/
structure Name where
  text : String
  line : Nat
  deriving DecidableEq, Repr

def Name.token (name : Name) : Token := ⟨.identifier name.text, name.line⟩

/-- The token of a symbol on a line. -/
def Symbol.token (symbol : Symbol) (line : Nat) : Token := ⟨.symbol symbol, line⟩

/-- The token of a keyword on a line. -/
def Keyword.token (keyword : Keyword) (line : Nat) : Token := ⟨.keyword keyword, line⟩

/-- The constants that a program can write. -/
inductive Literal where
  | nil
  | boolean (value : Bool)
  | number (value : Number)
  | text (contents : String)
  deriving DecidableEq, Repr

/-! ## Operators -/

inductive UnaryOperator where
  | not
  | negate
  deriving DecidableEq, Repr

def UnaryOperator.symbol : UnaryOperator → Symbol
  | not => .bang
  | negate => .minus

/-- The operators that evaluate both operands. -/
inductive BinaryOperator where
  | equal | notEqual
  | greater | greaterOrEqual | less | lessOrEqual
  | subtract | add
  | divide | multiply | power | modulo
  deriving DecidableEq, Repr

def BinaryOperator.symbol : BinaryOperator → Symbol
  | equal => .equalEqual | notEqual => .bangEqual
  | greater => .greater | greaterOrEqual => .greaterEqual
  | less => .less | lessOrEqual => .lessEqual
  | subtract => .minus | add => .plus
  | divide => .slash | multiply => .star | power => .caret | modulo => .percent

/-- The operators that evaluate their right operand only if the left one does not decide. -/
inductive LogicalOperator where
  | and
  | or
  deriving DecidableEq, Repr

def LogicalOperator.keyword : LogicalOperator → Keyword
  | and => .kwAnd
  | or => .kwOr

/-! ## Expressions and statements -/

/-- The class that a class declaration extends. -/
structure Superclass (β : Type) where
  name : Name
  binding : β
  deriving DecidableEq, Repr

mutual

/-- Expressions. A line is that of the operator, of the keyword, or of a call's closing
parenthesis. -/
inductive Expr (β : Type) where
  | literal (value : Literal)
  /-- An expression in parentheses. -/
  | group (inner : Expr β)
  | unary (operator : UnaryOperator) (line : Nat) (operand : Expr β)
  | binary (operator : BinaryOperator) (line : Nat) (left right : Expr β)
  | logical (operator : LogicalOperator) (line : Nat) (left right : Expr β)
  /-- Several expressions of which the last gives the value. -/
  | comma (operands : List (Expr β))
  /-- `condition ? thenBranch : elseBranch`, with the line of the question mark. -/
  | conditional (line : Nat) (condition thenBranch elseBranch : Expr β)
  | reference (name : Name) (binding : β)
  | assign (name : Name) (binding : β) (value : Expr β)
  | property (object : Expr β) (name : Name)
  | call (callee : Expr β) (line : Nat) (arguments : List (Expr β))
  | function (lambda : Lambda β)
  | thisInstance (line : Nat) (binding : β)
  | superMethod (line : Nat) (binding : β) (method : Name)

/-- What an assignment statement can store into. -/
inductive Target (β : Type) where
  | name (name : Name) (binding : β)
  | property (object : Expr β) (name : Name)

/-- Statements. -/
inductive Stmt (β : Type) where
  | expression (value : Expr β)
  | varDecl (name : Name) (initializer : Option (Expr β))
  /-- One value stored into every target, from left to right. -/
  | assign (targets : List (Target β)) (value : Expr β)
  /-- An assignment whose one target is a property. -/
  | set (object : Expr β) (name : Name) (value : Expr β)
  | block (body : List (Stmt β))
  | branch (condition : Expr β) (thenBranch : Stmt β) (elseBranch : Option (Stmt β))
  | whileLoop (condition : Expr β) (body : Stmt β)
  | forLoop (initializer : Option (Stmt β)) (condition increment : Option (Expr β))
      (body : Stmt β)
  | breakLoop (line : Nat)
  | continueLoop (line : Nat)
  | funDecl (name : Name) (lambda : Lambda β)
  | returnValue (line : Nat) (value : Option (Expr β))
  | classDecl (name : Name) (superclass : Option (Superclass β)) (methods : List (Method β))

/-- The parameters and the body of a function, a method or a function literal. -/
structure Lambda (β : Type) where
  parameters : List Name
  body : List (Stmt β)

/-- A method of a class declaration. -/
structure Method (β : Type) where
  name : Name
  lambda : Lambda β

end

end Lox
