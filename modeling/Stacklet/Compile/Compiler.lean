import Stacklet.Code.Bytecode
import Stacklet.Compile.Error
import Stacklet.Compile.Segment
import Stacklet.Compile.Slots
import Stacklet.Program.Basic

/-!
From programs to byte code. Each expression becomes code that leaves its value
on the stack; each statement becomes code that leaves the stack as it was.

A conditional is compiled to

        condition
        OpJumpNotTruthy otherwise
        consequence
        OpJump after
  otherwise:
        alternative, or OpNull
  after:

where each branch leaves one value: a branch that ends in an expression keeps
that value instead of dropping it, any other one yields null. Jumps are
absolute. The compiler counts the bytes it has laid out, so that the place
behind a branch is known as soon as the branch is compiled, and the jump in
front of it is written then.

There is no code for functions, calls, arrays, subscripts and returns.
-/

namespace Stacklet

/-- What earlier programs leave behind for later ones: the slots of names, and
the constants, whose numbers never change. -/
structure Env where
  slots : Slots
  constants : Array Value
  deriving Inhabited, DecidableEq

/-- No names and no constants. -/
def Env.empty : Env := ⟨.empty, #[]⟩

/-- The state of a compilation: names and constants so far, and the offset at
which the next instruction is laid out. -/
structure Progress extends Env where
  position : Nat

/-- A step of a compilation. What a failing step has defined stays defined. -/
abbrev Compile := EStateM CompileError Progress

/-- The instruction for an operator behind its operand. -/
def UnaryOp.instr : UnaryOp → Instr
  | .not => .bang
  | .negate => .minus

/-- The instruction for an operator behind its operands. There is none for
"less": its operands are swapped and "greater" is used. -/
def BinaryOp.instr : BinaryOp → Instr
  | .add => .add
  | .subtract => .sub
  | .multiply => .mul
  | .divide => .div
  | .less | .greater => .greaterThan
  | .equal => .equal
  | .notEqual => .notEqual

namespace Compile

/-- Leaves room for an instruction of that size. -/
def reserve (size : Nat) : Compile Unit :=
  modify fun p => { p with position := p.position + size }

/-- Lays an instruction out. -/
def emit (i : Instr) : Compile Segment := do
  reserve i.size
  return .one i

/-- A number as the operand of an instruction, if it fits. -/
def operand (op : Opcode) (number : Nat) : Compile UInt16 :=
  if number < 65536 then return UInt16.ofNat number
  else throw (.encode (.operandOutOfRange op number 2))

/-- The place laid out next, as the target of a jump. -/
def here (op : Opcode) : Compile UInt16 := do operand op (← get).position

/-- Loads a new constant. -/
def constant (value : Value) : Compile Segment := do
  let count := (← get).constants.size
  if count > 65535 then throw (.tooManyConstants count)
  else do
    modify fun p => { p with constants := p.constants.push value }
    emit (.constant (← operand .constant count))

/-- Loads the value of a name. -/
def load (name : String) : Compile Segment := do
  match (← get).slots.find? name with
  | none => throw (.undefinedVariable name)
  | some slot => emit (.getGlobal (← operand .getGlobal slot))

/-- Stores a value under a name, in a new slot. The name is defined even if its
slot cannot be numbered. -/
def store (name : String) : Compile Segment := do
  let slot := (← get).slots.count
  modify fun p => { p with slots := p.slots.define name }
  if slot > 65535 then throw (.tooManyGlobals slot)
  else emit (.setGlobal (← operand .setGlobal slot))

/-- Makes the code of a branch leave one value: the value that its last
instruction would drop, or else null. -/
def yieldValue (code : Segment) : Compile Segment := do
  match code.unsnoc? with
  | some (kept, .pop) =>
    modify fun p => { p with position := p.position - Instr.pop.size }
    return kept
  | _ => return code ++ (← emit .pushNull)

/-- A branch, given the compilation of its statements. -/
def branch (statements : Compile Segment) : Compile Segment := do yieldValue (← statements)

end Compile

open Compile in
mutual

/-- The code of an expression. -/
def Expr.compile : Expr → Compile Segment
  | .integer value => constant (.integer value)
  | .text value => constant (.string value)
  | .boolean value => emit (if value then .pushTrue else .pushFalse)
  | .name name => load name
  | .unary op operand => do
    let code ← operand.compile
    return code ++ (← emit op.instr)
  | .binary op left right =>
    if op = .less then do
      let second ← right.compile
      let first ← left.compile
      return second ++ first ++ (← emit op.instr)
    else do
      let first ← left.compile
      let second ← right.compile
      return first ++ second ++ (← emit op.instr)
  | .conditional condition consequence alternative => do
    let test ← condition.compile
    reserve 3
    let whenTrue ← branch (Stmt.compileAll consequence .empty)
    reserve 3
    let otherwise ← here .jumpNotTruthy
    let whenFalse ← Stmt.compileAlternative alternative
    let after ← here .jump
    return test ++ .one (.jumpNotTruthy otherwise) ++ whenTrue ++ .one (.jump after) ++ whenFalse
  | .function parameters body => throw (.unsupported (Expr.function parameters body).kindName)
  | .call callee arguments => throw (.unsupported (Expr.call callee arguments).kindName)
  | .array items => throw (.unsupported (Expr.array items).kindName)
  | .index base subscript => throw (.unsupported (Expr.index base subscript).kindName)

/-- The code of a statement. -/
def Stmt.compile : Stmt → Compile Segment
  | .define name value => do
    let code ← value.compile
    return code ++ (← store name)
  | .return value => throw (.unsupported (Stmt.return value).kindName)
  | .expr value => do
    let code ← value.compile
    return code ++ (← emit .pop)

/-- The code of statements, behind the code before them. -/
def Stmt.compileAll : List Stmt → Segment → Compile Segment
  | [], code => return code
  | statement :: statements, code => do
    let more ← statement.compile
    Stmt.compileAll statements (code ++ more)

/-- The code behind the jump over it: that of the second block of a conditional,
or null if there is none. -/
def Stmt.compileAlternative : Option (List Stmt) → Compile Segment
  | none => emit .pushNull
  | some block => branch (Stmt.compileAll block .empty)

end

/-- The bytes of instructions, behind the code before them. -/
def Code.append (code : Code) (instructions : List Instr) : Code :=
  instructions.foldl (fun code i => code.appendList i.bytes) code

/-- Compiles programs one after the other into one code. -/
structure Compiler where
  code : Code
  env : Env
  deriving Inhabited, DecidableEq

namespace Compiler

/-- No code yet, with the names and constants of earlier programs. -/
def ofEnv (env : Env) : Compiler := ⟨#[], env⟩

/-- Compiles a program behind the code so far. If that fails, no code is left at
all, but what was defined before the failure stays. -/
def compile (c : Compiler) (program : Program) : Except CompileError Unit × Compiler :=
  match Stmt.compileAll program .empty ⟨c.env, c.code.size⟩ with
  | .ok code p => (.ok (), ⟨Code.append c.code code.toList, p.toEnv⟩)
  | .error error p => (.error error, ⟨#[], p.toEnv⟩)

/-- The byte code compiled so far. -/
def bytecode (c : Compiler) : Bytecode := ⟨c.code, c.env.constants⟩

end Compiler

/-- The byte code of a program, starting from the names and constants of earlier
ones, with the names and constants afterwards. -/
def Program.compile (program : Program) (env : Env) : Except CompileError (Bytecode × Env) :=
  match (Compiler.ofEnv env).compile program with
  | (.ok (), c) => .ok (c.bytecode, c.env)
  | (.error error, _) => .error error

end Stacklet
