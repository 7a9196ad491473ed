import Stacklet.Code.Buffer
import Stacklet.Code.Bytecode
import Stacklet.Code.Census
import Stacklet.Code.Disassembly
import Stacklet.Code.Instr
import Stacklet.Code.Listing
import Stacklet.Code.Opcode
import Stacklet.Code.Operand
import Stacklet.Code.Walk
import Stacklet.CommandLine
import Stacklet.Compile.Compiler
import Stacklet.Compile.Error
import Stacklet.Compile.Patcher
import Stacklet.Compile.Segment
import Stacklet.Compile.Slots
import Stacklet.Directory
import Stacklet.Machine.Basic
import Stacklet.Machine.Error
import Stacklet.Machine.Run
import Stacklet.Main
import Stacklet.Program.Basic
import Stacklet.Program.Fault
import Stacklet.Program.Parser
import Stacklet.Program.Precedence
import Stacklet.Program.Printer
import Stacklet.Proofs.Code.Cuts
import Stacklet.Proofs.Code.Encoding
import Stacklet.Proofs.Code.Layout
import Stacklet.Proofs.Code.Lines
import Stacklet.Proofs.Code.Views
import Stacklet.Proofs.Compile.Branches
import Stacklet.Proofs.Compile.Census
import Stacklet.Proofs.Compile.Composition
import Stacklet.Proofs.Compile.Converse
import Stacklet.Proofs.Compile.Correctness
import Stacklet.Proofs.Compile.Demands
import Stacklet.Proofs.Compile.Heights
import Stacklet.Proofs.Compile.Limits
import Stacklet.Proofs.Compile.Lowering
import Stacklet.Proofs.Compile.Nesting
import Stacklet.Proofs.Compile.Patching
import Stacklet.Proofs.Compile.Refusal
import Stacklet.Proofs.Compile.Relocation
import Stacklet.Proofs.Compile.Resolution
import Stacklet.Proofs.Compile.WellFormed
import Stacklet.Proofs.Effects
import Stacklet.Proofs.Machine.Events
import Stacklet.Proofs.Machine.Execution
import Stacklet.Proofs.Machine.Guarded
import Stacklet.Proofs.Machine.Headroom
import Stacklet.Proofs.Machine.Mirror
import Stacklet.Proofs.Machine.Performance
import Stacklet.Proofs.Machine.Repetition
import Stacklet.Proofs.Machine.Safety
import Stacklet.Proofs.Machine.Steps
import Stacklet.Proofs.Program.Attempts
import Stacklet.Proofs.Program.Blocks
import Stacklet.Proofs.Program.Braces
import Stacklet.Proofs.Program.Cells
import Stacklet.Proofs.Program.Completeness
import Stacklet.Proofs.Program.Containment
import Stacklet.Proofs.Program.Depth
import Stacklet.Proofs.Program.Evaluation
import Stacklet.Proofs.Program.Grammar
import Stacklet.Proofs.Program.Joined
import Stacklet.Proofs.Program.Lasting
import Stacklet.Proofs.Program.Mentions
import Stacklet.Proofs.Program.Observed
import Stacklet.Proofs.Program.Rendering
import Stacklet.Proofs.Program.Room
import Stacklet.Proofs.Program.Seams
import Stacklet.Proofs.Program.Soundness
import Stacklet.Proofs.Program.Texts
import Stacklet.Proofs.Program.Watched
import Stacklet.Proofs.Session
import Stacklet.Proofs.Session.Assignment
import Stacklet.Proofs.Session.Failures
import Stacklet.Proofs.Session.Numerals
import Stacklet.Proofs.Session.Redefinition
import Stacklet.Proofs.Session.Splitting
import Stacklet.Proofs.Text.Classes
import Stacklet.Proofs.Text.Decimal
import Stacklet.Proofs.Token.Calls
import Stacklet.Proofs.Token.Layout
import Stacklet.Proofs.Token.Lexing
import Stacklet.Proofs.Token.Spacing
import Stacklet.Proofs.Value.Arrays
import Stacklet.Proofs.Wire.Prefixes
import Stacklet.Proofs.Wire.RoundTrip
import Stacklet.Repl
import Stacklet.Session
import Stacklet.Text.Alphabetic
import Stacklet.Text.Blank
import Stacklet.Text.Column
import Stacklet.Text.Combining
import Stacklet.Text.Decimal
import Stacklet.Text.Printable
import Stacklet.Text.Quoted
import Stacklet.Text.Ranges
import Stacklet.Token.Basic
import Stacklet.Token.Scanner
import Stacklet.Token.Table
import Stacklet.Value.Basic
import Stacklet.Value.Builtin
import Stacklet.Wire.Bytecode
import Stacklet.Wire.Error
import Stacklet.Wire.Value
import Stacklet.Wire.Varint
