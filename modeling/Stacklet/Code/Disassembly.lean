import Std.Data.HashSet
import Stacklet.Code.Bytecode
import Stacklet.Code.Listing
import Stacklet.Text.Quoted

/-!
The disassembly of byte code: a headed listing in which the places that jumps
lead to are marked and constants are shown beside the instructions that load
them, followed by the table of constants.
-/

namespace Stacklet

/-- The places that the jumps in code lead to, in the order of the jumps. -/
def Code.jumpTargets (code : Code) : Array Nat :=
  code.skimmed (fun targets op behind =>
    if op = .jump ∨ op = .jumpNotTruthy then
      match readWord? behind with
      | some target => targets.push target.toNat
      | none => targets
    else targets) #[]

/-- A constant as the disassembly shows it: strings in quotes, all else plain. -/
def Value.constantText : Value → String
  | .string text => quoted text
  | other => other.render

/-- The mark in front of a line that a jump leads to. -/
def jumpMark (marked : Bool) : String := if marked then "► " else "  "

/-- The constant that an instruction loads, as a remark. -/
def constantRemark (constants : Array Value) (op : Opcode) (operands : List Nat) : String :=
  match op, operands with
  | .constant, index :: _ =>
    match constants[index]? with
    | some value => "    ; " ++ value.constantText
    | none => ""
  | _, _ => ""

/-- The line of an instruction, or of the bytes that are none, marked or not. -/
def disassemblyLine (constants : Array Value) (marked : Nat → Bool) (offset : Nat) :
    Except DecodeError (Opcode × List Nat) → String
  | .ok (op, operands) =>
    zeroPadded 4 offset ++ " " ++ jumpMark (marked offset) ++ leftAligned 16 op.name ++
      operandsText operands ++ constantRemark constants op operands ++ "\n"
  | .error error =>
    zeroPadded 4 offset ++ " " ++ jumpMark (marked offset) ++ "!! " ++ error.message ++ "\n"

/-- The line that sets the heading off. -/
def disassemblyRule : String := String.ofList (List.replicate 40 '═') ++ "\n"

/-- The heading of a disassembly. -/
def disassemblyHeading (size : Nat) : String :=
  disassemblyRule ++ " main\n" ++ " " ++ toString size ++ " bytes\n" ++ disassemblyRule

/-- The table of constants. Without constants there is none. -/
def constantTable (constants : Array Value) : String :=
  if constants.isEmpty then ""
  else
    "\n constants\n" ++ String.join (constants.toList.zipIdx.map fun (value, index) =>
      "  [" ++ toString index ++ "] " ++ value.constantText ++ "\n")

/-- The disassembly of byte code. -/
def Bytecode.disassembly (b : Bytecode) : String :=
  let targets := Std.HashSet.ofArray b.code.jumpTargets
  disassemblyHeading b.code.size ++
    String.join (b.code.decoded (disassemblyLine b.constants targets.contains)) ++
    constantTable b.constants

end Stacklet
