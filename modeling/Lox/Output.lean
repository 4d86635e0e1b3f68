/-!
# Output

Where a program's output goes: bytes in the order they were written. An output may have room for so
many bytes and no more; a write that does not fit puts in what does and fails. It may also fail to
be flushed.
-/

namespace Lox

structure Output where
  written : ByteArray
  /-- How many more bytes there is room for; `none` for any number. -/
  room : Option Nat
  flushFails : Bool

namespace Output

/-- An empty output. -/
def empty (room : Option Nat) (flushFails : Bool) : Output := ⟨.empty, room, flushFails⟩

/-- An empty output with room for everything. -/
def unlimited : Output := empty none false

/-- Writes as many of the bytes as there is room for, and says whether that was all. -/
def write (output : Output) (bytes : ByteArray) : Output × Bool :=
  match output.room with
  | none => ({ output with written := output.written ++ bytes }, true)
  | some room =>
    if bytes.size ≤ room then
      ({ output with written := output.written ++ bytes, room := some (room - bytes.size) }, true)
    else
      ({ output with written := output.written ++ bytes.extract 0 room, room := some 0 }, false)

end Output

end Lox
