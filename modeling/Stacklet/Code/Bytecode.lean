import Stacklet.Code.Instr
import Stacklet.Value.Basic

/-!
Byte code: what a program is compiled to and what the machine runs.
-/

namespace Stacklet

/-- Code together with the values that its instructions refer to by number. -/
structure Bytecode where
  code : Code
  constants : Array Value
  deriving Inhabited, DecidableEq

end Stacklet
