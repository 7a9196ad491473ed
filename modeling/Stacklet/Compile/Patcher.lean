import Stacklet.Code.Buffer
import Stacklet.Compile.Compiler

/-!
The compiler that writes while it goes through a program. All code goes into one buffer. A
jump is written before its target is known, with a placeholder in its place, and written
again later. The last two instructions are remembered: a branch that ends in an expression
cuts the last one off, which drops the value of the branch.

`Compiler` comes to the same without writing anything twice.
-/

namespace Stacklet

/-- An instruction that has been written: its operation, and where it starts. -/
structure Emitted where
  op : Opcode
  position : Nat
  deriving Inhabited, DecidableEq

/-- The code so far, the names and constants, and the last two instructions written. -/
structure Patcher where
  buffer : Buffer
  env : Env
  last? : Option Emitted
  previous? : Option Emitted
  deriving Inhabited, DecidableEq

/-- Why nothing more is written: the program cannot be compiled, or an instruction was to be
written over bytes that do not exist. -/
inductive PatchError
  | refused (error : CompileError)
  | outOfBounds
  deriving DecidableEq, Inhabited, Repr

/-- A step of a compilation into a buffer. -/
abbrev Patch := EStateM PatchError Patcher

namespace Patch

/-- What stands in a jump for a target that is not known yet. -/
def placeholder : Nat := 9999

/-- The bytes of an instruction, if its operands fit. -/
def encode (op : Opcode) (operands : List Nat) : Patch (List UInt8) :=
  match op.make operands with
  | .ok bytes => return bytes
  | .error error => throw (.refused (.encode error))

/-- Writes an instruction behind the others, and tells where it starts. -/
def emit (op : Opcode) (operands : List Nat) : Patch Nat := do
  let bytes ← encode op operands
  modifyGet fun p => (p.buffer.size,
    ⟨p.buffer.append bytes, p.env, some ⟨op, p.buffer.size⟩, p.last?⟩)

/-- Gives a constant the next number. -/
def addConstant (value : Value) : Patch Nat := do
  let count := (← get).env.constants.size
  if count > 65535 then throw (.refused (.tooManyConstants count))
  else do
    modify fun p => { p with env.constants := p.env.constants.push value }
    return count

/-- Loads a new constant. -/
def constant (value : Value) : Patch Unit := do
  let index ← addConstant value
  let _ ← emit .constant [index]

/-- Loads the value of a name. -/
def load (name : String) : Patch Unit := do
  match (← get).env.slots.find? name with
  | none => throw (.refused (.undefinedVariable name))
  | some slot =>
    let _ ← emit .getGlobal [slot]

/-- Stores a value under a name, in a new slot. -/
def store (name : String) : Patch Unit := do
  let slot := (← get).env.slots.count
  modify fun p => { p with env.slots := p.env.slots.define name }
  if slot > 65535 then throw (.refused (.tooManyGlobals slot))
  else
    let _ ← emit .setGlobal [slot]

/-- Cuts the instruction written last off, and takes the one before it for the last one. -/
def removeLast : Patch Unit :=
  modify fun p =>
    match p.last? with
    | some last => { p with buffer := p.buffer.truncate last.position, last? := p.previous? }
    | none => p

/-- Writes an instruction again, with another operand. -/
def changeOperand (position : Nat) (op : Opcode) (operand : Nat) : Patch Unit := do
  let bytes ← encode op [operand]
  match (← get).buffer.overwrite? position bytes with
  | some buffer => modify fun p => { p with buffer }
  | none => throw .outOfBounds

/-- A branch, given the compilation of its statements: it keeps the value that its last
instruction would drop, or else yields null. -/
def branch (statements : Patch Unit) : Patch Unit := do
  statements
  if (← get).last?.any (·.op = .pop) then removeLast
  else
    let _ ← emit .pushNull []

end Patch

open Patch in
mutual

/-- Writes the code of an expression. -/
def Expr.patch : Expr → Patch Unit
  | .integer value => constant (.integer value)
  | .text value => constant (.string value)
  | .boolean value => do
    let _ ← emit (if value then .pushTrue else .pushFalse) []
  | .name name => load name
  | .unary op operand => do
    operand.patch
    let _ ← emit op.instr.opcode []
  | .binary op left right =>
    if op = .less then do
      right.patch
      left.patch
      let _ ← emit .greaterThan []
    else do
      left.patch
      right.patch
      let _ ← emit op.instr.opcode []
  | .conditional condition consequence alternative => do
    condition.patch
    let toElse ← emit .jumpNotTruthy [placeholder]
    branch (Stmt.patchAll consequence)
    let toEnd ← emit .jump [placeholder]
    changeOperand toElse .jumpNotTruthy (← get).buffer.size
    Stmt.patchAlternative alternative
    changeOperand toEnd .jump (← get).buffer.size
  | .function parameters body =>
    throw (.refused (.unsupported (Expr.function parameters body).kindName))
  | .call callee arguments =>
    throw (.refused (.unsupported (Expr.call callee arguments).kindName))
  | .array items => throw (.refused (.unsupported (Expr.array items).kindName))
  | .index base subscript => throw (.refused (.unsupported (Expr.index base subscript).kindName))

/-- Writes the code of a statement. -/
def Stmt.patch : Stmt → Patch Unit
  | .define name value => do
    value.patch
    store name
  | .return value => throw (.refused (.unsupported (Stmt.return value).kindName))
  | .expr value => do
    value.patch
    let _ ← emit .pop []

/-- Writes the code of statements. -/
def Stmt.patchAll : List Stmt → Patch Unit
  | [] => return
  | statement :: statements => do
    statement.patch
    Stmt.patchAll statements

/-- Writes the code of the second block of a conditional, or null if there is none. -/
def Stmt.patchAlternative : Option (List Stmt) → Patch Unit
  | none => do
    let _ ← emit .pushNull []
  | some block => branch (Stmt.patchAll block)

end

namespace Patcher

/-- No code yet, with the names and constants of earlier programs. -/
def ofEnv (env : Env) : Patcher := ⟨.empty, env, none, none⟩

/-- Writes a program behind the code so far. If that fails, the code is discarded, but what
was defined before the failure stays. -/
def compile (p : Patcher) (program : Program) : Except PatchError Unit × Patcher :=
  match Stmt.patchAll program p with
  | .ok () p => (.ok (), p)
  | .error error p => (.error error, ⟨.empty, p.env, none, none⟩)

end Patcher

end Stacklet
