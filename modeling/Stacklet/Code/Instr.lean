import Stacklet.Code.Operand

/-!
Instructions, and what stands at an offset of a byte string that is taken as
code. Any byte string may be: `Code.entries` cuts it into instructions up to
its end or up to the first place where none stands. The machine reads single
entries at the offsets it jumps to.
-/

namespace Stacklet

/-- Instructions with their operands. -/
inductive Instr
  | constant (index : UInt16)
  | add | sub | mul | div
  | pop
  | pushTrue | pushFalse | pushNull
  | equal | notEqual | greaterThan
  | minus | bang
  | jumpNotTruthy (target : UInt16)
  | jump (target : UInt16)
  | getGlobal (slot : UInt16)
  | setGlobal (slot : UInt16)
  deriving DecidableEq, Inhabited, Repr

namespace Instr

/-- The operation of an instruction. -/
def opcode : Instr → Opcode
  | .constant _ => .constant
  | .add => .add
  | .sub => .sub
  | .mul => .mul
  | .div => .div
  | .pop => .pop
  | .pushTrue => .pushTrue
  | .pushFalse => .pushFalse
  | .pushNull => .pushNull
  | .equal => .equal
  | .notEqual => .notEqual
  | .greaterThan => .greaterThan
  | .minus => .minus
  | .bang => .bang
  | .jumpNotTruthy _ => .jumpNotTruthy
  | .jump _ => .jump
  | .getGlobal _ => .getGlobal
  | .setGlobal _ => .setGlobal

/-- The operand of an instruction, if it has one. -/
def operand? : Instr → Option UInt16
  | .constant word | .jumpNotTruthy word | .jump word | .getGlobal word | .setGlobal word =>
    some word
  | _ => none

/-- The place that an instruction may jump to. -/
def target? : Instr → Option Nat
  | .jumpNotTruthy target | .jump target => some target.toNat
  | _ => none

/-- The bytes of an instruction. -/
def bytes (instr : Instr) : List UInt8 :=
  match instr.operand? with
  | none => [instr.opcode.toByte]
  | some word => instr.opcode.toByte :: bytesOfWord word

/-- The length of an instruction in bytes. -/
def size (instr : Instr) : Nat :=
  match instr.operand? with
  | none => 1
  | some _ => 3

theorem length_bytes (instr : Instr) : instr.bytes.length = instr.size := by
  cases instr <;> rfl

theorem size_pos (instr : Instr) : 0 < instr.size := by
  cases instr <;> simp [size, operand?]

end Instr

/-- How the instructions of an operation are built. -/
inductive Form
  | plain (instr : Instr)
  | wide (instr : UInt16 → Instr)

/-- The form of an operation's instructions. -/
def Opcode.form : Opcode → Form
  | .constant => .wide .constant
  | .add => .plain .add
  | .sub => .plain .sub
  | .mul => .plain .mul
  | .div => .plain .div
  | .pop => .plain .pop
  | .pushTrue => .plain .pushTrue
  | .pushFalse => .plain .pushFalse
  | .pushNull => .plain .pushNull
  | .equal => .plain .equal
  | .notEqual => .plain .notEqual
  | .greaterThan => .plain .greaterThan
  | .minus => .plain .minus
  | .bang => .plain .bang
  | .jumpNotTruthy => .wide .jumpNotTruthy
  | .jump => .wide .jump
  | .getGlobal => .wide .getGlobal
  | .setGlobal => .wide .setGlobal

/-- Code as bytes. -/
abbrev Code := Array UInt8

/-- What stands at an offset of code: an instruction, an operation whose operand
is cut off by the end, or a byte that is no operation. -/
inductive Entry
  | instr (instr : Instr)
  | truncated (op : Opcode)
  | unknown (byte : UInt8)
  deriving DecidableEq, Inhabited, Repr

/-- The operation that an entry names. -/
def Entry.opcode? : Entry → Option Opcode
  | .instr i => some i.opcode
  | .truncated op => some op
  | .unknown _ => none

/-- The instruction of an entry, or why there is none. -/
def Entry.decode : Entry → Except DecodeError Instr
  | .instr i => .ok i
  | .truncated _ => .error (.truncated 0)
  | .unknown byte => .error (.unknownOpcode byte)

namespace Code

/-- What stands at an offset, if the code reaches so far. -/
def entryAt? (code : Code) (offset : Nat) : Option Entry :=
  match code[offset]? with
  | none => none
  | some byte =>
    match Opcode.ofByte? byte with
    | none => some (.unknown byte)
    | some op =>
      match op.form with
      | .plain instr => some (.instr instr)
      | .wide instr =>
        match code[offset + 1]?, code[offset + 2]? with
        | some high, some low => some (.instr (instr (wordOfBytes high low)))
        | _, _ => some (.truncated op)

/-- Adds the entries from an offset on to those found before. Every entry takes
a byte, so a budget of the code's length lasts. -/
def entriesFrom (code : Code) : (budget : Nat) → (offset : Nat) → Array (Nat × Entry) →
    Array (Nat × Entry)
  | 0, _, found => found
  | budget + 1, offset, found =>
    match entryAt? code offset with
    | none => found
    | some (.instr instr) =>
      entriesFrom code budget (offset + instr.size) (found.push (offset, .instr instr))
    | some broken => found.push (offset, broken)

/-- The entries of code with their offsets: its instructions from the start on,
and at most one entry at the end that is none. -/
def entries (code : Code) : List (Nat × Entry) := (entriesFrom code code.size 0 #[]).toList

end Code

end Stacklet
