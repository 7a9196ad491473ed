import Stacklet.Code.Opcode

/-!
Operands between numbers and bytes. A width is one or two bytes; an operand
that does not fit its width is refused, never cut.
-/

namespace Stacklet

/-- Why an instruction cannot be written. -/
inductive EncodeError
  | operandCount (op : Opcode) (expected got : Nat)
  | operandOutOfRange (op : Opcode) (operand width : Nat)
  deriving DecidableEq, Inhabited, Repr

/-- The wording of the error. -/
def EncodeError.message : EncodeError → String
  | .operandCount op expected got =>
    op.name ++ " takes " ++ toString expected ++ " operands, got " ++ toString got
  | .operandOutOfRange op operand width =>
    "operand " ++ toString operand ++ " of " ++ op.name ++ " does not fit in " ++
      toString width ++ " bytes"

/-- Why bytes are no instruction. The offset of a cut operand counts from the
byte behind the operation code. -/
inductive DecodeError
  | unknownOpcode (byte : UInt8)
  | truncated (offset : Nat)
  deriving DecidableEq, Inhabited, Repr

/-- The wording of the error. -/
def DecodeError.message : DecodeError → String
  | .unknownOpcode byte => "opcode " ++ toString byte.toNat ++ " undefined"
  | .truncated offset => "instruction at " ++ toString offset ++ " is truncated"

/-- The word with these two bytes, the high one first. -/
def wordOfBytes (high low : UInt8) : UInt16 := high.toUInt16 * 256 + low.toUInt16

/-- The two bytes of a word, the high one first. -/
def bytesOfWord (word : UInt16) : List UInt8 := [(word / 256).toUInt8, word.toUInt8]

theorem wordOfBytes_bytesOfWord (word : UInt16) :
    wordOfBytes (word / 256).toUInt8 word.toUInt8 = word := by
  apply UInt16.toNat_inj.mp
  have bound := word.toNat_lt
  simp only [wordOfBytes, UInt16.toNat_add, UInt16.toNat_mul, UInt8.toNat_toUInt16,
    UInt16.toNat_toUInt8, UInt16.toNat_div, UInt16.reduceToNat]
  omega

/-- The word at the start of the bytes. -/
def readWord? : List UInt8 → Option UInt16
  | high :: low :: _ => some (wordOfBytes high low)
  | _ => none

/-- The bytes of one operand. -/
def Opcode.operandBytes (op : Opcode) (operand width : Nat) : Except EncodeError (List UInt8) :=
  match width with
  | 2 =>
    if operand < 65536 then .ok (bytesOfWord (UInt16.ofNat operand))
    else .error (.operandOutOfRange op operand width)
  | 1 =>
    if operand < 256 then .ok [UInt8.ofNat operand]
    else .error (.operandOutOfRange op operand width)
  | _ => .error (.operandOutOfRange op operand width)

/-- The bytes of an instruction. The first operand that does not fit is reported. -/
def Opcode.make (op : Opcode) (operands : List Nat) : Except EncodeError (List UInt8) :=
  if operands.length = op.widths.length then do
    let fields ←
      (operands.zip op.widths).mapM fun (operand, width) => op.operandBytes operand width
    return op.toByte :: fields.flatten
  else .error (.operandCount op op.widths.length operands.length)

/-- The operand in a field of that width. Only fields of two bytes hold more
than their first byte. -/
def operandOf (width : Nat) (field : List UInt8) : Nat :=
  match width, field with
  | 2, high :: low :: _ => (wordOfBytes high low).toNat
  | _, byte :: _ => byte.toNat
  | _, [] => 0

/-- Reads operands of the given widths from the bytes behind an operation code,
`offset` bytes of which have been read before, and tells how many were read in
the end. -/
def readOperands : (widths : List Nat) → (bytes : List UInt8) → (offset : Nat) →
    Except DecodeError (List Nat × Nat)
  | [], _, offset => .ok ([], offset)
  | width :: widths, bytes, offset =>
    if bytes.length < width then .error (.truncated offset)
    else
      match readOperands widths (bytes.drop width) (offset + width) with
      | .ok (operands, read) => .ok (operandOf width bytes :: operands, read)
      | .error error => .error error

end Stacklet
