import Stacklet.Code.Bytecode
import Stacklet.Wire.Value

/-!
Byte code as bytes: the code and then the constants, each behind its length.
What stands behind the last constant is not looked at.
-/

namespace Stacklet

/-- The stored form of byte code. -/
def Bytecode.toBytes (b : Bytecode) : Except WireError (List UInt8) := do
  let constants ← b.constants.toList.foldrM Wire.valueOnto []
  return Wire.varint b.code.size ++ (b.code.toList ++ (Wire.varint b.constants.size ++ constants))

namespace Wire

/-- Reads byte code. -/
def readBytecode : Reader Bytecode := do
  let code ← readBytes (← readNumber)
  let count ← readNumber
  let budget := (← get).length
  let constants ← readMany (readValue budget) count #[]
  return ⟨code.toArray, constants⟩

end Wire

/-- The byte code that is stored at the start of the bytes. -/
def Bytecode.ofBytes (bytes : List UInt8) : Except WireError Bytecode :=
  (Wire.readBytecode.run bytes).map Prod.fst

end Stacklet
