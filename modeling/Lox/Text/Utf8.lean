/-!
# Reading bytes as UTF-8

A source file is refused unless all of its bytes are UTF-8, and the refusal says where the first
character goes wrong: after how many good bytes, and how many bytes of the bad part could still
have begun a character. Program output, which may be cut inside a character, is shown with a
replacement character in place of each such part.
-/

namespace Lox.Utf8

/-- What is wrong with the first character of some bytes. -/
inductive Fault where
  /-- So many bytes, at least one, could have begun a character or are no beginning at all; the
  byte after them does not continue it. -/
  | invalid (length : Nat)
  /-- The bytes end inside the character. -/
  | incomplete
  deriving DecidableEq, Repr

/-- The bounds of each byte that has to follow a leading byte; `none` if no character begins so.
The bounds after `E0`, `ED`, `F0` and `F4` leave out overlong forms, surrogates and values past the
last character. -/
def followers? (lead : Nat) : Option (List (Nat × Nat)) :=
  let tail := (0x80, 0xBF)
  if lead < 0x80 then some []
  else if lead < 0xC2 then none
  else if lead < 0xE0 then some [tail]
  else if lead = 0xE0 then some [(0xA0, 0xBF), tail]
  else if lead = 0xED then some [(0x80, 0x9F), tail]
  else if lead < 0xF0 then some [tail, tail]
  else if lead = 0xF0 then some [(0x90, 0xBF), tail, tail]
  else if lead < 0xF4 then some [tail, tail, tail]
  else if lead = 0xF4 then some [(0x80, 0x8F), tail, tail]
  else none

/-- The number of bytes of a character, `taken` of which have been read, given the bounds of those
that have to follow. -/
def lengthFrom (taken : Nat) : List (Nat × Nat) → List UInt8 → Except Fault Nat
  | [], _ => .ok taken
  | _ :: _, [] => .error .incomplete
  | (low, high) :: bounds, byte :: rest =>
    if low ≤ byte.toNat ∧ byte.toNat ≤ high then lengthFrom (taken + 1) bounds rest
    else .error (.invalid taken)

/-- The number of bytes of the first character. -/
def characterLength (lead : UInt8) (rest : List UInt8) : Except Fault Nat :=
  match followers? lead.toNat with
  | some bounds => lengthFrom 1 bounds rest
  | none => .error (.invalid 1)

/-! ## Refusing -/

/-- The first fault of some bytes, and how many good bytes stand before it. -/
structure DecodeError where
  index : Nat
  fault : Fault
  deriving DecidableEq, Repr

def DecodeError.message (e : DecodeError) : String :=
  match e.fault with
  | .invalid length => s!"invalid utf-8 sequence of {length} bytes from index {e.index}"
  | .incomplete => s!"incomplete utf-8 byte sequence from index {e.index}"

/-- The first fault at or after `index`, where the given bytes start. -/
def firstFault? (index : Nat) : List UInt8 → Option DecodeError
  | [] => none
  | lead :: rest =>
    match characterLength lead rest with
    | .error fault => some ⟨index, fault⟩
    | .ok length => firstFault? (index + length) (rest.drop (length - 1))
  termination_by bytes => bytes.length
  decreasing_by simp only [List.length_drop, List.length_cons]; omega

/-- The text that the bytes spell, or the first reason why they spell none. -/
def decode (bytes : ByteArray) : Except DecodeError String :=
  match String.fromUTF8? bytes, firstFault? 0 bytes.toList with
  | some text, _ => .ok text
  | none, some error => .error error
  | none, none => .error ⟨bytes.size, .incomplete⟩

/-! ## Replacing -/

/-- The character that bytes of the right form spell: the low bits of the first byte, then six
bits of each further one. -/
def spelled (bytes : List UInt8) : Char :=
  match bytes with
  | [] => '\x00'
  | lead :: rest =>
    let leadBits := if rest.isEmpty then lead.toNat else lead.toNat % Nat.pow 2 (6 - rest.length)
    Char.ofNat (rest.foldl (fun value byte => value * 64 + byte.toNat % 64) leadBits)

/-- The characters of some bytes, with `U+FFFD` in place of each part that spells none. -/
def charactersReplacing : List UInt8 → List Char
  | [] => []
  | lead :: rest =>
    match characterLength lead rest with
    | .ok length =>
      spelled (lead :: rest.take (length - 1)) :: charactersReplacing (rest.drop (length - 1))
    | .error (.invalid length) => '\uFFFD' :: charactersReplacing (rest.drop (length - 1))
    | .error .incomplete => ['\uFFFD']
  termination_by bytes => bytes.length
  decreasing_by all_goals (simp only [List.length_drop, List.length_cons]; omega)

/-- The text of some bytes, with `U+FFFD` in place of each part that spells no character. -/
def decodeReplacing (bytes : ByteArray) : String :=
  match String.fromUTF8? bytes with
  | some text => text
  | none => String.ofList (charactersReplacing bytes.toList)

end Lox.Utf8
