import Lox.Text.Unprintable

/-!
# Quoted text

Text inside double quotes, so that every character of it can be told: the quote and the backslash
are escaped by a backslash, the common control characters by a letter, and every other
unprintable character by its number in hexadecimal.
-/

namespace Lox.Text

/-- A character as it stands inside double quotes. -/
def quotedChar (c : Char) : List Char :=
  if c = '\x00' then ['\\', '0']
  else if c = '\t' then ['\\', 't']
  else if c = '\r' then ['\\', 'r']
  else if c = '\n' then ['\\', 'n']
  else if c = '\\' then ['\\', '\\']
  else if c = '"' then ['\\', '"']
  else if isUnprintable c then
    ['\\', 'u', '\x7b'] ++ Nat.toDigits 16 c.toNat ++ ['\x7d']
  else [c]

/-- The text in double quotes. -/
def quoted (text : String) : String :=
  String.ofList ('"' :: text.toList.flatMap quotedChar ++ ['"'])

end Lox.Text
