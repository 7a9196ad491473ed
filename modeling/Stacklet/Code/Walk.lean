import Stacklet.Code.Instr

/-!
Two ways of going through code from its first byte on.

Who shows code decodes it: the next instruction starts behind the operands that
have been read, and the first bytes that are no instruction end the walk. Who
counts operations skips their operands: the next one starts where the length that
the operation has by definition ends, whether or not there are so many bytes, and
the first byte that is no operation ends the walk.
-/

namespace Stacklet

/-- The operation whose code is that byte. -/
def Opcode.lookup (byte : UInt8) : Except DecodeError Opcode :=
  match Opcode.ofByte? byte with
  | some op => .ok op
  | none => .error (.unknownOpcode byte)

/-- The operation that a byte names and its operands, read from the bytes behind it,
with the number of bytes that they take. -/
def Opcode.decode (byte : UInt8) (behind : List UInt8) :
    Except DecodeError (Opcode × List Nat × Nat) := do
  let op ← Opcode.lookup byte
  let (operands, read) ← readOperands op.widths behind 0
  return (op, operands, read)

namespace Code

/-- Adds what is to be said of each instruction from an offset on, whose bytes are
given, and of what ends them, to what was said before. Every instruction takes a
byte, so a budget of the code's length lasts. -/
def decodeFrom {α : Type} (say : Nat → Except DecodeError (Opcode × List Nat) → α) :
    (budget : Nat) → (offset : Nat) → List UInt8 → Array α → Array α
  | 0, _, _, said => said
  | _ + 1, _, [], said => said
  | budget + 1, offset, byte :: behind, said =>
    match Opcode.decode byte behind with
    | .error error => said.push (say offset (.error error))
    | .ok (op, operands, read) =>
      decodeFrom say budget (offset + 1 + read) (behind.drop read)
        (said.push (say offset (.ok (op, operands))))

/-- What is to be said of each instruction of code, at its offset, and of the bytes
that are none, if there are such. -/
def decoded {α : Type} (code : Code) (say : Nat → Except DecodeError (Opcode × List Nat) → α) :
    List α :=
  (decodeFrom say code.size 0 code.toList #[]).toList

/-- Updates a state for each operation in some bytes, with the bytes behind it. -/
def skipFrom {σ : Type} (update : σ → Opcode → List UInt8 → σ) :
    (budget : Nat) → List UInt8 → σ → σ
  | 0, _, state => state
  | _ + 1, [], state => state
  | budget + 1, byte :: behind, state =>
    match Opcode.ofByte? byte with
    | none => state
    | some op =>
      skipFrom update budget ((byte :: behind).drop (instructionLength op.widths))
        (update state op behind)

/-- Updates a state for each operation in code, with the bytes behind it. -/
def skimmed {σ : Type} (code : Code) (update : σ → Opcode → List UInt8 → σ) (state : σ) : σ :=
  skipFrom update code.size code.toList state

end Code

end Stacklet
