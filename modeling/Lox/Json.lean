import Lox.Number.Form

/-!
# JSON documents

Documents with the members of an object in the order they were given, and their two written
forms: compact, without any white space, and pretty, with one value to a line.
-/

namespace Lox

inductive Json where
  | null
  | number (value : Number)
  | natural (value : Nat)
  | text (contents : String)
  | array (elements : List Json)
  | object (members : List (String × Json))

namespace Json

/-! ## Text -/

/-- A character inside the quotes of a JSON string. Only what JSON demands is escaped. -/
def escapedChar (c : Char) : List Char :=
  if c = '"' then ['\\', '"']
  else if c = '\\' then ['\\', '\\']
  else if c = '\x08' then ['\\', 'b']
  else if c = '\x0c' then ['\\', 'f']
  else if c = '\n' then ['\\', 'n']
  else if c = '\r' then ['\\', 'r']
  else if c = '\t' then ['\\', 't']
  else if c.toNat < 0x20 then
    ['\\', 'u', '0', '0', Nat.digitChar (c.toNat / 16), Nat.digitChar (c.toNat % 16)]
  else [c]

def quotedText (contents : String) : List Char :=
  '"' :: contents.toList.flatMap escapedChar ++ ['"']

/-! ## The compact form -/

mutual

def compact : Json → List Char
  | null => ['n', 'u', 'l', 'l']
  | number value => value.jsonForm
  | natural value => Nat.toDigits 10 value
  | text contents => quotedText contents
  | array elements => '[' :: compactElements elements ++ [']']
  | object members => '\x7b' :: compactMembers members ++ ['\x7d']

def compactElements : List Json → List Char
  | [] => []
  | [element] => element.compact
  | element :: next :: rest => element.compact ++ ',' :: compactElements (next :: rest)

def compactMembers : List (String × Json) → List Char
  | [] => []
  | [(key, value)] => quotedText key ++ ':' :: value.compact
  | (key, value) :: next :: rest =>
    quotedText key ++ ':' :: value.compact ++ ',' :: compactMembers (next :: rest)

end

/-! ## The pretty form

Each level of nesting is indented by two spaces; an empty array or object stays on one line. -/

private def newLine (depth : Nat) : List Char := '\n' :: List.replicate (2 * depth) ' '

mutual

def prettyAt (depth : Nat) : Json → List Char
  | null => ['n', 'u', 'l', 'l']
  | number value => value.jsonForm
  | natural value => Nat.toDigits 10 value
  | text contents => quotedText contents
  | array [] => ['[', ']']
  | array (element :: rest) =>
    '[' :: newLine (depth + 1) ++ element.prettyAt (depth + 1)
      ++ prettyElements (depth + 1) rest ++ newLine depth ++ [']']
  | object [] => ['\x7b', '\x7d']
  | object ((key, value) :: rest) =>
    '\x7b' :: newLine (depth + 1) ++ quotedText key ++ ':' :: ' ' :: value.prettyAt (depth + 1)
      ++ prettyMembers (depth + 1) rest ++ newLine depth ++ ['\x7d']

def prettyElements (depth : Nat) : List Json → List Char
  | [] => []
  | element :: rest =>
    ',' :: newLine depth ++ element.prettyAt depth ++ prettyElements depth rest

def prettyMembers (depth : Nat) : List (String × Json) → List Char
  | [] => []
  | (key, value) :: rest =>
    ',' :: newLine depth ++ quotedText key ++ ':' :: ' ' :: value.prettyAt depth
      ++ prettyMembers depth rest

end

def pretty (document : Json) : List Char := document.prettyAt 0

end Json

end Lox
