import Stacklet.Code.Walk
import Stacklet.Text.Column

/-!
The listing of code: one line for each instruction, with its offset. Bytes that are no
instruction end it with a line that says why.
-/

namespace Stacklet

/-- The operands of an instruction as listings show them, each behind a space. -/
def operandsText (operands : List Nat) : String :=
  String.join (operands.map fun operand => " " ++ toString operand)

/-- The line of an instruction, or of the bytes that are none. -/
def listingLine (offset : Nat) : Except DecodeError (Opcode × List Nat) → String
  | .ok (op, operands) => zeroPadded 4 offset ++ " " ++ op.name ++ operandsText operands ++ "\n"
  | .error error => zeroPadded 4 offset ++ " ERROR: " ++ error.message ++ "\n"

/-- The listing of code. -/
def Code.listing (code : Code) : String := String.join (code.decoded listingLine)

end Stacklet
