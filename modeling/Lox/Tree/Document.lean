import Lox.Json
import Lox.Tree

/-!
# Trees as JSON documents

Every node becomes an object with one member, named for the kind of the node; a node without parts
becomes just that name. Tokens keep their kind, lexeme and line, so two trees with the same
document are the same tree.
-/

namespace Lox

variable {β : Type}

/-! ## Tokens -/

/-- A kind of token: its name, and the value of a literal with it. -/
def Token.Kind.document : Token.Kind → Json
  | text contents => .object [("STRING", .text contents)]
  | number _ value => .object [("NUMBER", .number value)]
  | kind => .text kind.name

def Token.document (token : Token) : Json :=
  .object [("token_type", token.kind.document), ("lexeme", .text token.lexeme),
    ("line", .natural token.line)]

/-! ## Nodes -/

/-- A node with one part. -/
def node (kind : String) (part : Json) : Json := .object [(kind, part)]

/-- A node with several parts. -/
def nodeOf (kind : String) (parts : List (String × Json)) : Json := node kind (.object parts)

def Literal.document : Literal → Json
  | nil => .text "Nil"
  | boolean true => .text "True"
  | boolean false => .text "False"
  | number value => node "Number" (.number value)
  | text contents => node "Str" (.text contents)

/-- A function's document, with its name or `null`. -/
def functionDocument (name : Option Name) (parameters : List Name) (body : List Json) :
    Json :=
  .object [("name", (name.map fun n => n.token.document).getD .null),
    ("params", .array (parameters.map fun p => p.token.document)), ("body", .array body)]

mutual

def Expr.document : Expr β → Json
  | .literal value => node "Literal" value.document
  | .group inner => node "Grouping" inner.document
  | .unary operator line operand =>
    nodeOf "Unary" [("operator", (operator.symbol.token line).document),
      ("right", operand.document)]
  | .binary operator line left right =>
    nodeOf "Binary" [("left", left.document),
      ("operator", (operator.symbol.token line).document), ("right", right.document)]
  | .logical operator line left right =>
    nodeOf "Logical" [("left", left.document),
      ("operator", (operator.keyword.token line).document), ("right", right.document)]
  | .comma operands => node "Comma" (.array (Expr.documents operands))
  | .conditional line condition thenBranch elseBranch =>
    nodeOf "Ternary" [("condition", condition.document),
      ("question", (Symbol.question.token line).document),
      ("then_branch", thenBranch.document), ("else_branch", elseBranch.document)]
  | .reference name _ => node "Variable" name.token.document
  | .assign name _ value =>
    nodeOf "Assign" [("name", name.token.document), ("value", value.document)]
  | .property object name =>
    nodeOf "Get" [("object", object.document), ("name", name.token.document)]
  | .call callee line arguments =>
    nodeOf "Call" [("callee", callee.document),
      ("paren", (Symbol.rightParen.token line).document),
      ("arguments", .array (Expr.documents arguments))]
  | .function lambda => node "Function" (lambda.document none)
  | .thisInstance line _ => node "This" (Keyword.kwThis.token line).document
  | .superMethod line _ method =>
    nodeOf "Super" [("keyword", (Keyword.kwSuper.token line).document),
      ("method", method.token.document)]

def Expr.documents : List (Expr β) → List Json
  | [] => []
  | expr :: rest => expr.document :: Expr.documents rest

/-- A clause that can be left out. -/
def Expr.clauseDocument : Option (Expr β) → Json
  | none => .text "Empty"
  | some expr => expr.document

/-- A part that can be missing. -/
def Expr.partDocument : Option (Expr β) → Json
  | none => .null
  | some expr => expr.document

def Target.document : Target β → Json
  | .name name _ => node "Name" name.token.document
  | .property object name =>
    nodeOf "Property" [("object", object.document), ("name", name.token.document)]

def Target.documents : List (Target β) → List Json
  | [] => []
  | target :: rest => target.document :: Target.documents rest

def Stmt.document : Stmt β → Json
  | .expression value => node "Expression" value.document
  | .varDecl name initializer =>
    nodeOf "Var" [("name", name.token.document), ("initializer", Expr.partDocument initializer)]
  | .assign targets value =>
    nodeOf "Assign" [("targets", .array (Target.documents targets)), ("value", value.document)]
  | .set object name value =>
    nodeOf "Set" [("object", object.document), ("name", name.token.document),
      ("value", value.document)]
  | .block body => node "Block" (.array (Stmt.documents body))
  | .branch condition thenBranch elseBranch =>
    nodeOf "If" [("condition", condition.document), ("then_branch", thenBranch.document),
      ("else_branch", Stmt.partDocument elseBranch)]
  | .whileLoop condition body =>
    nodeOf "While" [("condition", condition.document), ("body", body.document)]
  | .forLoop initializer condition increment body =>
    nodeOf "For" [("initializer", Stmt.partDocument initializer),
      ("condition", Expr.clauseDocument condition),
      ("increment", Expr.clauseDocument increment), ("body", body.document)]
  | .breakLoop line => node "Break" (Keyword.kwBreak.token line).document
  | .continueLoop line => node "Continue" (Keyword.kwContinue.token line).document
  | .funDecl name lambda => node "Function" (lambda.document (some name))
  | .returnValue line value =>
    nodeOf "Return" [("keyword", (Keyword.kwReturn.token line).document),
      ("value", Expr.clauseDocument value)]
  | .classDecl name superclass methods =>
    nodeOf "Class" [("name", name.token.document),
      ("superclass", (superclass.map fun s => node "Variable" s.name.token.document).getD .null),
      ("methods", .array (Method.documents methods))]

def Stmt.documents : List (Stmt β) → List Json
  | [] => []
  | stmt :: rest => stmt.document :: Stmt.documents rest

def Stmt.partDocument : Option (Stmt β) → Json
  | none => .null
  | some stmt => stmt.document

def Lambda.document (name : Option Name) : Lambda β → Json
  | ⟨parameters, body⟩ => functionDocument name parameters (Stmt.documents body)

def Method.document : Method β → Json
  | ⟨name, lambda⟩ => lambda.document (some name)

def Method.documents : List (Method β) → List Json
  | [] => []
  | method :: rest => method.document :: Method.documents rest

end

end Lox
