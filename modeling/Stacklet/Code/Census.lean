import Stacklet.Code.Bytecode
import Stacklet.Code.Walk
import Stacklet.Text.Column

/-!
How often each operation occurs in code. A last operation whose operand is cut
off is counted; operand bytes never are.
-/

namespace Stacklet

/-- How often an operation occurs in code. -/
def Code.countOf (code : Code) (wanted : Opcode) : Nat :=
  code.skimmed (fun count op _ => if op = wanted then count + 1 else count) 0

/-- The operations that occur in code, in the order of their codes, with the
number of times they do. -/
def Code.census (code : Code) : List (Opcode × Nat) :=
  (Opcode.all.toList.map fun op => (op, code.countOf op)).filter fun (_, count) => count ≠ 0

/-- Adds one to the count of a name, which is listed from then on. -/
def tally (name : String) : List (String × Nat) → List (String × Nat)
  | [] => [(name, 1)]
  | (other, count) :: rest =>
    if other = name then (other, count + 1) :: rest else (other, count) :: tally name rest

/-- How often the name of each operation occurs in code, and how many operations occur in it. -/
def Code.frequencies (code : Code) : List (String × Nat) × Nat :=
  code.skimmed (fun (counts, total) op _ => (tally op.name counts, total + 1)) ([], 0)

/-- Whether a name does not come behind another one in the statistics: the more
frequent first, and in their own order among equally frequent ones. -/
def beforeInStatistics (a b : String × Nat) : Bool :=
  b.2 < a.2 || (a.2 = b.2 && !(b.1 < a.1))

/-- The line of a name in the statistics. -/
def frequencyLine : String × Nat → String
  | (name, count) => "  " ++ leftAligned 16 name ++ " " ++ toString count ++ "\n"

/-- The statistics of byte code with that many operations, bytes and constants. -/
def statisticsText (operations bytes constants : Nat) (table : List (String × Nat)) : String :=
  "=== BYTECODE STATS ===\n" ++
    "instructions: " ++ toString operations ++ "\n" ++
    "bytes:        " ++ toString bytes ++ "\n" ++
    "constants:    " ++ toString constants ++ "\n" ++
    String.join (table.map frequencyLine)

/-- The statistics of byte code. -/
def Bytecode.statistics (b : Bytecode) : String :=
  let (counts, total) := b.code.frequencies
  statisticsText total b.code.size b.constants.size (counts.mergeSort beforeInStatistics)

end Stacklet
