import Stacklet.Machine.Basic

/-!
Running byte code. A run starts at offset 0 and ends when it reaches an offset
that has no byte, or at an error. Code may jump back, so a run is given a number
of steps; compiled code only jumps forward and always gets along with the number
that `run` gives it.
-/

namespace Stacklet

namespace Machine

/-- Goes on with a run at an offset, for at most `steps` instructions. -/
def runFrom (b : Bytecode) : (steps : Nat) → (offset : Nat) → Exec Unit
  | 0, offset =>
    match b.code.entryAt? offset with
    | none => return
    | some _ => throw .stepLimit
  | steps + 1, offset =>
    match b.code.entryAt? offset with
    | none => return
    | some entry =>
      match entry.decode with
      | .error error => throw (.badInstruction offset error)
      | .ok i => do
        let next ← execute b.constants (offset + i.size) i
        runFrom b steps next

/-- The steps that a run is given: more than the code has instructions, and more
than anyone would wait for. -/
def patience (b : Bytecode) : Nat := 0x4000000000000000 + b.code.size

/-- How a run has ended, and the machine it has left. -/
def ended : EStateM.Result RuntimeError Machine Unit → Except RuntimeError Unit × Machine
  | .ok () m => (.ok (), m)
  | .error error m => (.error error, m)

/-- Runs byte code from its start, on the stack and the globals as they are. -/
def run (b : Bytecode) (m : Machine) : Except RuntimeError Unit × Machine :=
  ended (runFrom b (patience b) 0 m)

end Machine

end Stacklet
