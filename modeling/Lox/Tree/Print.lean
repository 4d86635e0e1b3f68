import Lox.Tree

/-!
# Printed trees

Trees in prefix form, every node in parentheses with what it is in front:
`(+ 1.0 (group (* 2.0 3.0)))`, `(var a (call f 1.0))`. A clause that is left out is `_`.
-/

namespace Lox

variable {β : Type}

private def joined (parts : List String) : String := String.join (parts.map (" " ++ ·))

def Literal.printed : Literal → String
  | nil => "nil"
  | boolean true => "true"
  | boolean false => "false"
  | number value => String.ofList value.treeForm
  | text contents => contents

/-- The parameters in parentheses, with a space between each two. -/
def Name.printedParameters (parameters : List Name) : String :=
  "(" ++ " ".intercalate (parameters.map (·.text)) ++ ")"

mutual

def Expr.printed : Expr β → String
  | .literal value => value.printed
  | .group inner => "(group " ++ inner.printed ++ ")"
  | .unary operator _ operand =>
    "(" ++ operator.symbol.lexeme ++ " " ++ operand.printed ++ ")"
  | .binary operator _ left right =>
    "(" ++ operator.symbol.lexeme ++ " " ++ left.printed ++ " " ++ right.printed ++ ")"
  | .logical operator _ left right =>
    "(" ++ operator.keyword.lexeme ++ " " ++ left.printed ++ " " ++ right.printed ++ ")"
  | .comma operands => "(comma" ++ joined (Expr.printedEach operands) ++ ")"
  | .conditional _ condition thenBranch elseBranch =>
    "(?: " ++ condition.printed ++ " " ++ thenBranch.printed ++ " " ++ elseBranch.printed ++ ")"
  | .reference name _ => name.text
  | .assign name _ value => "(= " ++ name.text ++ " " ++ value.printed ++ ")"
  | .property object name => "(. " ++ object.printed ++ " " ++ name.text ++ ")"
  | .call callee _ arguments =>
    "(call " ++ callee.printed ++ joined (Expr.printedEach arguments) ++ ")"
  | .function lambda => "(fun " ++ lambda.printedRest
  | .thisInstance _ _ => "this"
  | .superMethod _ _ method => "(. super " ++ method.text ++ ")"

def Expr.printedEach : List (Expr β) → List String
  | [] => []
  | expr :: rest => expr.printed :: Expr.printedEach rest

def Expr.printedClause : Option (Expr β) → String
  | none => "_"
  | some expr => expr.printed

def Target.printed : Target β → String
  | .name name _ => name.text
  | .property object name => "(. " ++ object.printed ++ " " ++ name.text ++ ")"

def Target.printedEach : List (Target β) → List String
  | [] => []
  | target :: rest => target.printed :: Target.printedEach rest

def Stmt.printed : Stmt β → String
  | .expression value => value.printed
  | .varDecl name none => "(var " ++ name.text ++ ")"
  | .varDecl name (some initializer) => "(var " ++ name.text ++ " " ++ initializer.printed ++ ")"
  | .assign targets value => "(=" ++ joined (Target.printedEach targets ++ [value.printed]) ++ ")"
  | .set object name value =>
    "(= (. " ++ object.printed ++ " " ++ name.text ++ ") " ++ value.printed ++ ")"
  | .block body => "(block" ++ joined (Stmt.printedEach body) ++ ")"
  | .branch condition thenBranch none =>
    "(if " ++ condition.printed ++ " " ++ thenBranch.printed ++ ")"
  | .branch condition thenBranch (some elseBranch) =>
    "(if " ++ condition.printed ++ " " ++ thenBranch.printed ++ " " ++ elseBranch.printed ++ ")"
  | .whileLoop condition body => "(while " ++ condition.printed ++ " " ++ body.printed ++ ")"
  | .forLoop initializer condition increment body =>
    "(for " ++ Stmt.printedClause initializer ++ " " ++ Expr.printedClause condition ++ " "
      ++ Expr.printedClause increment ++ " " ++ body.printed ++ ")"
  | .breakLoop _ => "(break)"
  | .continueLoop _ => "(continue)"
  | .funDecl name lambda => "(fun " ++ name.text ++ " " ++ lambda.printedRest
  | .returnValue _ none => "(return)"
  | .returnValue _ (some value) => "(return " ++ value.printed ++ ")"
  | .classDecl name superclass methods =>
    "(class " ++ name.text
      ++ (match superclass with
        | none => ""
        | some parent => " < " ++ parent.name.text)
      ++ joined (Method.printedEach methods) ++ ")"

def Stmt.printedEach : List (Stmt β) → List String
  | [] => []
  | stmt :: rest => stmt.printed :: Stmt.printedEach rest

def Stmt.printedClause : Option (Stmt β) → String
  | none => "_"
  | some stmt => stmt.printed

/-- The parameters, the body, and the parenthesis that closes the function. -/
def Lambda.printedRest : Lambda β → String
  | ⟨parameters, body⟩ =>
    Name.printedParameters parameters ++ joined (Stmt.printedEach body) ++ ")"

def Method.printed : Method β → String
  | ⟨name, lambda⟩ => "(fun " ++ name.text ++ " " ++ lambda.printedRest

def Method.printedEach : List (Method β) → List String
  | [] => []
  | method :: rest => method.printed :: Method.printedEach rest

end

end Lox
