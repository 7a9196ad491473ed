/-!
The operation codes of the stack machine. An instruction is one byte that names
the operation, followed by its operands, big-endian and of fixed widths. Five
operations have one operand of two bytes, all others have none.
-/

namespace Stacklet

/-- The operations, in the order of their codes. -/
inductive Opcode
  | constant
  | add | sub | mul | div
  | pop
  | pushTrue | pushFalse | pushNull
  | equal | notEqual | greaterThan
  | minus | bang
  | jumpNotTruthy | jump
  | getGlobal | setGlobal
  deriving DecidableEq, Inhabited, Repr

namespace Opcode

/-- The operations, each at the index that is its code. -/
def all : Array Opcode :=
  #[.constant, .add, .sub, .mul, .div, .pop, .pushTrue, .pushFalse, .pushNull, .equal, .notEqual,
    .greaterThan, .minus, .bang, .jumpNotTruthy, .jump, .getGlobal, .setGlobal]

/-- The code of an operation. -/
def toByte : Opcode → UInt8
  | .constant => 0
  | .add => 1
  | .sub => 2
  | .mul => 3
  | .div => 4
  | .pop => 5
  | .pushTrue => 6
  | .pushFalse => 7
  | .pushNull => 8
  | .equal => 9
  | .notEqual => 10
  | .greaterThan => 11
  | .minus => 12
  | .bang => 13
  | .jumpNotTruthy => 14
  | .jump => 15
  | .getGlobal => 16
  | .setGlobal => 17

/-- The operation with that code, if there is one. -/
def ofByte? (byte : UInt8) : Option Opcode := all[byte.toNat]?

theorem ofByte?_toByte (op : Opcode) : ofByte? op.toByte = some op := by
  cases op <;> rfl

/-- The name of an operation in listings. -/
def name : Opcode → String
  | .constant => "OpConstant"
  | .add => "OpAdd"
  | .sub => "OpSub"
  | .mul => "OpMul"
  | .div => "OpDiv"
  | .pop => "OpPop"
  | .pushTrue => "OpTrue"
  | .pushFalse => "OpFalse"
  | .pushNull => "OpNull"
  | .equal => "OpEqual"
  | .notEqual => "OpNotEqual"
  | .greaterThan => "OpGreaterThan"
  | .minus => "OpMinus"
  | .bang => "OpBang"
  | .jumpNotTruthy => "OpJumpNotTruthy"
  | .jump => "OpJump"
  | .getGlobal => "OpGetGlobal"
  | .setGlobal => "OpSetGlobal"

/-- The operation of that name. -/
def ofName? (name : String) : Option Opcode := all.find? fun op => op.name = name

/-- The sign of a binary operation in messages. -/
def symbol : Opcode → String
  | .add => "+"
  | .sub => "-"
  | .mul => "*"
  | .div => "/"
  | .equal => "=="
  | .notEqual => "!="
  | .greaterThan => ">"
  | op => op.name

/-- The widths of an operation's operands in bytes. -/
def widths : Opcode → List Nat
  | .constant | .jumpNotTruthy | .jump | .getGlobal | .setGlobal => [2]
  | _ => []

end Opcode

/-- The length in bytes of an instruction with operands of these widths. -/
def instructionLength (widths : List Nat) : Nat := widths.foldl (· + ·) 1

end Stacklet
