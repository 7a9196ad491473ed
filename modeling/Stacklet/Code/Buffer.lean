import Stacklet.Code.Instr

/-!
A growing row of bytes that takes whole instructions. What has been written can
be overwritten in place, within its length, and cut off at the end.
-/

namespace Stacklet

/-- The bytes written so far. -/
structure Buffer where
  bytes : Code
  deriving Inhabited, DecidableEq

namespace Buffer

/-- A buffer with nothing in it. -/
def empty : Buffer := ⟨#[]⟩

/-- The instructions one behind the other. -/
def ofInstructions (instructions : List (List UInt8)) : Buffer :=
  ⟨instructions.flatten.toArray⟩

/-- The number of bytes. -/
def size (b : Buffer) : Nat := b.bytes.size

/-- Writes an instruction behind the others. It starts where the buffer ended. -/
def append (b : Buffer) (instruction : List UInt8) : Buffer := ⟨b.bytes.appendList instruction⟩

/-- Writes an instruction over the bytes from an offset on. It has to end inside
the buffer. -/
def overwrite? (b : Buffer) (offset : Nat) (instruction : List UInt8) : Option Buffer :=
  if offset + instruction.length ≤ b.size then
    some ⟨(b.bytes.extract 0 offset).appendList instruction ++
      b.bytes.extract (offset + instruction.length) b.size⟩
  else none

/-- Keeps no more than that many bytes. -/
def truncate (b : Buffer) (length : Nat) : Buffer := ⟨b.bytes.take length⟩

end Buffer

end Stacklet
