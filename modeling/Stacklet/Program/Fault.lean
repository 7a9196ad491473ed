import Stacklet.Text.Quoted
import Stacklet.Token.Basic

/-!
What can be wrong with a statement, and the wording of it. The parser records
one fault for each statement that it gives up.
-/

namespace Stacklet

/-- How deeply expressions may nest. -/
def maxNesting : Nat := 256

/-- Why a statement cannot be read. -/
inductive Fault
  /-- A certain kind of token is due and another one stands there. -/
  | unexpected (expected got : Kind)
  /-- An expression is due and the token starts none. -/
  | noOperand (kind : Kind) (literal : String)
  /-- The digits denote no 64-bit integer. -/
  | invalidInteger (literal : String)
  /-- More than `maxNesting` expressions are open at once. -/
  | nestingTooDeep
  deriving DecidableEq, Inhabited, Repr

/-- The wording of a fault. -/
def Fault.message : Fault → String
  | .unexpected expected got =>
    "expected next token to be " ++ expected.name ++ ", got " ++ got.name ++ " instead"
  | .noOperand kind literal =>
    "no prefix parse function for " ++ kind.name ++ " found (" ++ quoted literal ++ ")"
  | .invalidInteger literal => "could not parse " ++ quoted literal ++ " as integer"
  | .nestingTooDeep => "expression nested deeper than " ++ toString maxNesting ++ " levels"

end Stacklet
