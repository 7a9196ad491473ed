import Stacklet.Code.Bytecode
import Stacklet.Machine.Error

/-!
The stack machine: a stack of fixed height, a store of globals, and the single
instructions. Popping a value only lowers the top; the value stays in its cell
until something is pushed there, so the value popped last can still be read.
-/

namespace Stacklet

/-- The stack and the globals. -/
structure Machine where
  /-- All cells of the stack, also those above the top. -/
  stack : Array Value
  /-- The number of values on the stack, and the cell that is filled next. -/
  top : Nat
  globals : Array Value
  deriving Inhabited, DecidableEq

namespace Machine

/-- The usual height of the stack. -/
def defaultStackSize : Nat := 2048

/-- The usual number of globals: as many as an operand can tell apart. -/
def defaultGlobalsSize : Nat := 65536

/-- A store of globals that are all null. -/
def freshGlobals (size : Nat) : Array Value := Array.replicate size .null

/-- A machine with an empty stack of that height. -/
def withGlobals (stackSize : Nat) (globals : Array Value) : Machine :=
  ⟨Array.replicate stackSize .null, 0, globals⟩

/-- The value on top of the stack, if there is one. -/
def topValue? (m : Machine) : Option Value :=
  match m.top with
  | 0 => none
  | n + 1 => m.stack[n]?

/-- The value in the first cell above the top: the one popped last, if the stack
has such a cell. -/
def lastPopped (m : Machine) : Value := m.stack.getD m.top .null

/-- Doing something on a machine. What a failing step has popped stays popped. -/
abbrev Exec := EStateM RuntimeError Machine

/-- Pushes a value. -/
def push (value : Value) : Exec Unit := do
  if (← get).top < (← get).stack.size then
    modify fun m => { m with stack := m.stack.setIfInBounds m.top value, top := m.top + 1 }
  else throw .stackOverflow

/-- Pops a value. -/
def pop : Exec Value := do
  let m ← get
  match m.top with
  | 0 => throw .stackUnderflow
  | n + 1 =>
    set { m with top := n }
    return m.stack.getD n .null

/-- Goes on with a result that may be an error. -/
def ofExcept {α : Type} : Except RuntimeError α → Exec α
  | .ok value => pure value
  | .error error => throw error

/-- The operations on two integers that yield an integer. They wrap around, and
division rounds toward zero. -/
def arithmetic (op : Opcode) (a b : Int64) : Except RuntimeError Int64 :=
  match op with
  | .add => .ok (a + b)
  | .sub => .ok (a - b)
  | .mul => .ok (a * b)
  | _ => if b = 0 then .error .divisionByZero else .ok (a / b)

/-- The value of a binary operation. Integers can be added, subtracted,
multiplied, divided and compared, truth values only be tested for being equal. -/
def binaryValue (op : Opcode) (left right : Value) : Except RuntimeError Value :=
  match op, left, right with
  | .equal, .integer a, .integer b => .ok (.boolean (a = b))
  | .notEqual, .integer a, .integer b => .ok (.boolean (a ≠ b))
  | .greaterThan, .integer a, .integer b => .ok (.boolean (b < a))
  | .equal, .boolean a, .boolean b => .ok (.boolean (a = b))
  | .notEqual, .boolean a, .boolean b => .ok (.boolean (a ≠ b))
  | op, .integer a, .integer b => .integer <$> arithmetic op a b
  | op, left, right => .error (.unsupportedOperands op left.type right.type)

/-- The negative of a value. The least integer is its own negative. -/
def negated : Value → Except RuntimeError Value
  | .integer n => .ok (.integer (-n))
  | other => .error (.unsupportedNegation other.type)

/-- Replaces the two topmost values by the value of an operation on them. Both
are popped before it is tried. -/
def binary (op : Opcode) : Exec Unit := do
  let right ← pop
  let left ← pop
  push (← ofExcept (binaryValue op left right))

/-- Replaces the topmost value by its negative. -/
def negate : Exec Unit := do push (← ofExcept (negated (← pop)))

/-- Replaces the topmost value by the opposite truth value. -/
def invert : Exec Unit := do push (.boolean !(← pop).isTruthy)

/-- Pushes a constant. -/
def pushConstant (constants : Array Value) (index : Nat) : Exec Unit :=
  match constants[index]? with
  | some value => push value
  | none => throw (.constantOutOfRange index)

/-- Pushes the value of a global. -/
def pushGlobal (slot : Nat) : Exec Unit := do
  let m ← get
  match m.globals[slot]? with
  | some value => push value
  | none => throw (.globalOutOfRange slot m.globals.size)

/-- Pops a value into a global. It is popped even if there is no such global. -/
def popGlobal (slot : Nat) : Exec Unit := do
  let value ← pop
  let size := (← get).globals.size
  if slot < size then modify fun m => { m with globals := m.globals.setIfInBounds slot value }
  else throw (.globalOutOfRange slot size)

/-- Executes an instruction and tells where to go on; `next` is the offset behind
it. -/
def execute (constants : Array Value) (next : Nat) : Instr → Exec Nat
  | .constant index => do
    pushConstant constants index.toNat
    return next
  | .add => do
    binary .add
    return next
  | .sub => do
    binary .sub
    return next
  | .mul => do
    binary .mul
    return next
  | .div => do
    binary .div
    return next
  | .equal => do
    binary .equal
    return next
  | .notEqual => do
    binary .notEqual
    return next
  | .greaterThan => do
    binary .greaterThan
    return next
  | .pushTrue => do
    push (.boolean true)
    return next
  | .pushFalse => do
    push (.boolean false)
    return next
  | .pushNull => do
    push .null
    return next
  | .bang => do
    invert
    return next
  | .minus => do
    negate
    return next
  | .pop => do
    let _ ← pop
    return next
  | .setGlobal slot => do
    popGlobal slot.toNat
    return next
  | .getGlobal slot => do
    pushGlobal slot.toNat
    return next
  | .jump target => return target.toNat
  | .jumpNotTruthy target => return if (← pop).isTruthy then next else target.toNat

end Machine

end Stacklet
