import Lox.Number.Form

/-!
# Tokens

A token is a kind and the line it ends on. The kind fixes everything else: the text it was written
as (its *lexeme*) and the value of a literal, so no token can carry a lexeme of another kind.
-/

namespace Lox

/-! ## Symbols and keywords -/

/-- Punctuation and operators. -/
inductive Symbol where
  | leftParen | rightParen | leftBrace | rightBrace | comma | dot | minus | plus | semicolon
  | slash | star | caret | percent | question | colon
  | bang | bangEqual | equal | equalEqual | greater | greaterEqual | less | lessEqual
  deriving DecidableEq, Repr

namespace Symbol

def lexeme : Symbol → String
  | leftParen => "(" | rightParen => ")" | leftBrace => "\x7b" | rightBrace => "\x7d"
  | comma => "," | dot => "." | minus => "-" | plus => "+" | semicolon => ";"
  | slash => "/" | star => "*" | caret => "^" | percent => "%" | question => "?" | colon => ":"
  | bang => "!" | bangEqual => "!=" | equal => "=" | equalEqual => "=="
  | greater => ">" | greaterEqual => ">=" | less => "<" | lessEqual => "<="

/-- The name in listings of tokens. -/
def name : Symbol → String
  | leftParen => "LEFT_PAREN" | rightParen => "RIGHT_PAREN"
  | leftBrace => "LEFT_BRACE" | rightBrace => "RIGHT_BRACE"
  | comma => "COMMA" | dot => "DOT" | minus => "MINUS" | plus => "PLUS"
  | semicolon => "SEMICOLON" | slash => "SLASH" | star => "STAR" | caret => "CARET"
  | percent => "PERCENT" | question => "QUESTION" | colon => "COLON"
  | bang => "BANG" | bangEqual => "BANG_EQUAL" | equal => "EQUAL" | equalEqual => "EQUAL_EQUAL"
  | greater => "GREATER" | greaterEqual => "GREATER_EQUAL"
  | less => "LESS" | lessEqual => "LESS_EQUAL"

/-- The symbol that a character is by itself. -/
def ofChar? (c : Char) : Option Symbol :=
  match c with
  | '(' => some leftParen | ')' => some rightParen
  | '\x7b' => some leftBrace | '\x7d' => some rightBrace
  | ',' => some comma | '.' => some dot | '-' => some minus | '+' => some plus
  | ';' => some semicolon | '/' => some slash | '*' => some star | '^' => some caret
  | '%' => some percent | '?' => some question | ':' => some colon
  | '!' => some bang | '=' => some equal | '>' => some greater | '<' => some less
  | _ => none

/-- The symbol that a symbol becomes when an equals sign follows it directly. -/
def withEqual? : Symbol → Option Symbol
  | bang => some bangEqual
  | equal => some equalEqual
  | greater => some greaterEqual
  | less => some lessEqual
  | _ => none

end Symbol

/-- The reserved words. -/
inductive Keyword where
  | kwAnd | kwBreak | kwClass | kwContinue | kwElse | kwFalse | kwFun | kwFor | kwIf | kwNil
  | kwOr | kwReturn | kwSuper | kwThis | kwTrue | kwVar | kwWhile
  deriving DecidableEq, Repr

namespace Keyword

def lexeme : Keyword → String
  | kwAnd => "and" | kwBreak => "break" | kwClass => "class" | kwContinue => "continue"
  | kwElse => "else" | kwFalse => "false" | kwFun => "fun" | kwFor => "for" | kwIf => "if"
  | kwNil => "nil" | kwOr => "or" | kwReturn => "return" | kwSuper => "super"
  | kwThis => "this" | kwTrue => "true" | kwVar => "var" | kwWhile => "while"

/-- The name in listings of tokens. -/
def name : Keyword → String
  | kwAnd => "AND" | kwBreak => "BREAK" | kwClass => "CLASS" | kwContinue => "CONTINUE"
  | kwElse => "ELSE" | kwFalse => "FALSE" | kwFun => "FUN" | kwFor => "FOR" | kwIf => "IF"
  | kwNil => "NIL" | kwOr => "OR" | kwReturn => "RETURN" | kwSuper => "SUPER"
  | kwThis => "THIS" | kwTrue => "TRUE" | kwVar => "VAR" | kwWhile => "WHILE"

def all : List Keyword :=
  [kwAnd, kwBreak, kwClass, kwContinue, kwElse, kwFalse, kwFun, kwFor, kwIf, kwNil,
    kwOr, kwReturn, kwSuper, kwThis, kwTrue, kwVar, kwWhile]

/-- The keyword that a word is, if it is reserved. -/
def ofWord? (word : String) : Option Keyword := all.find? (·.lexeme == word)

end Keyword

/-! ## Tokens -/

/-- What a token is. -/
inductive Token.Kind where
  | symbol (symbol : Symbol)
  | keyword (keyword : Keyword)
  | identifier (name : String)
  /-- A text literal, by what stands between its quotes. -/
  | text (contents : String)
  /-- A number literal, by how it was written and what it stands for. -/
  | number (lexeme : String) (value : Number)
  | endOfInput
  deriving DecidableEq, Repr

namespace Token.Kind

/-- How a token of this kind is written. -/
def lexeme : Kind → String
  | symbol s => s.lexeme
  | keyword k => k.lexeme
  | identifier name => name
  | text contents => "\"" ++ contents ++ "\""
  | number lexeme _ => lexeme
  | endOfInput => ""

/-- The name of the kind in listings of tokens. -/
def name : Kind → String
  | symbol s => s.name
  | keyword k => k.name
  | identifier _ => "IDENTIFIER"
  | text _ => "STRING"
  | number _ _ => "NUMBER"
  | endOfInput => "EOF"

/-- A literal's value in listings of tokens, and `null` for all other kinds. -/
def literalForm : Kind → String
  | text contents => contents
  | number _ value => String.ofList value.tokenForm
  | _ => "null"

end Token.Kind

/-- A kind of token, and the line that its last character stands on. -/
structure Token where
  kind : Token.Kind
  line : Nat
  deriving DecidableEq, Repr

namespace Token

def lexeme (t : Token) : String := t.kind.lexeme

/-- The token in a listing: the name of its kind, its lexeme, its literal value. -/
def listed (t : Token) : String := t.kind.name ++ " " ++ t.lexeme ++ " " ++ t.kind.literalForm

end Token

end Lox
