import Stacklet.Code.Operand
import Stacklet.Value.Basic

/-!
Why a run stops before the end of its code, and the wording of it.
-/

namespace Stacklet

/-- Why a run stops. -/
inductive RuntimeError
  /-- A value is pushed onto the full stack. -/
  | stackOverflow
  /-- A value is popped from the empty stack. -/
  | stackUnderflow
  /-- A binary operation does not take operands of these types. -/
  | unsupportedOperands (op : Opcode) (left right : ValueType)
  /-- Only integers have a negative. -/
  | unsupportedNegation (type : ValueType)
  | divisionByZero
  /-- No instruction stands at the offset that was reached. -/
  | badInstruction (offset : Nat) (error : DecodeError)
  /-- There is no constant of this number. -/
  | constantOutOfRange (index : Nat)
  /-- The store of globals has no such slot. -/
  | globalOutOfRange (slot size : Nat)
  /-- The run was given fewer steps than it needs. -/
  | stepLimit
  deriving DecidableEq, Inhabited, Repr

/-- The wording of the error. -/
def RuntimeError.message : RuntimeError → String
  | .stackOverflow => "stack overflow"
  | .stackUnderflow => "stack underflow"
  | .unsupportedOperands op left right =>
    "unsupported types for binary operation: " ++ left.name ++ " " ++ op.symbol ++ " " ++ right.name
  | .unsupportedNegation type => "unsupported type for negation: " ++ type.name
  | .divisionByZero => "division by zero"
  | .badInstruction offset error => "bad instruction at " ++ toString offset ++ ": " ++ error.message
  | .constantOutOfRange index => "constant " ++ toString index ++ " does not exist"
  | .globalOutOfRange slot size =>
    "global slot " ++ toString slot ++ " outside store of " ++ toString size
  | .stepLimit => "step limit reached"

end Stacklet
