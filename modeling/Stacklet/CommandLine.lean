import Stacklet.Code.Census
import Stacklet.Code.Disassembly
import Stacklet.Directory
import Stacklet.Program.Printer
import Stacklet.Token.Table
import Stacklet.Wire.Bytecode

/-!
The command line: which request the arguments make, and what is answered to it.
Flags may stand anywhere; the first argument that is no flag names the program.
Unknown flags are passed over.
-/

namespace Stacklet

/-- What is shown of a program. -/
inductive Mode
  /-- Its tokens. -/
  | tokens (colored : Bool)
  /-- Its canonical text. -/
  | tree
  /-- Its value, behind its byte code if that is asked for. -/
  | value (withCode : Bool)
  deriving DecidableEq, Inhabited, Repr

/-- What the arguments ask for. -/
inductive Request
  | usage
  | repl
  /-- Something of the program at a path. -/
  | program (path : String) (mode : Mode)
  deriving DecidableEq, Inhabited, Repr

/-- What the arguments ask for. The tokens come before the tree, and the tree
before the byte code. -/
def Request.ofArguments (arguments : List String) : Request :=
  let given (flags : List String) : Bool := arguments.any flags.contains
  if given ["--help", "-h"] then .usage
  else if given ["--repl", "-i"] || arguments.isEmpty then .repl
  else
    match arguments.find? fun argument => !argument.startsWith "-" with
    | none => .usage
    | some path =>
      if given ["--tokens"] then .program path (.tokens !(given ["--no-color"]))
      else if given ["--ast"] then .program path .tree
      else .program path (.value (given ["--bc", "--bytecode"]))

/-- The outcome of a command. -/
structure Answer where
  exitCode : UInt32
  output : String
  errors : String
  deriving DecidableEq, Inhabited, Repr

/-- A command that succeeds. -/
def Answer.success (output : String) : Answer := ⟨0, output, ""⟩

/-- A command that fails, possibly with some output before. -/
def Answer.failure (output errors : String) : Answer := ⟨1, output, errors⟩

/-- The overview of the command line. -/
def usageText : String :=
  "SIMIAN - bytecode compiler and VM for a small expression language\n" ++
  "\n" ++
  "Usage:\n" ++
  "  simian                     Start interactive REPL\n" ++
  "  simian <file.mk>           Run a program and print its last value\n" ++
  "  simian --repl, -i          Start interactive REPL\n" ++
  "  simian --tokens <file.mk>  Show tokens only (--no-color for plain output)\n" ++
  "  simian --ast <file.mk>     Print the parsed program\n" ++
  "  simian --bc <file.mk>      Disassemble, then run\n" ++
  "  simian --help, -h          Show this help\n" ++
  "\n" ++
  "Set RUST_LOG=debug (or trace) for compiler and VM logging.\n"

/-- The line above the first prompt. -/
def banner : String := "simian - type expressions, Ctrl-D to quit\n"

/-- The message when the prompt loop fails. -/
def replFailure : String := "REPL I/O error: " ++ Repl.notText ++ "\n"

/-- The byte code of a program and what can be told about it, with the messages
that belong elsewhere. -/
def Bytecode.report (b : Bytecode) : String × String :=
  let shown := "=== BYTECODE PROGRAM ===\n" ++ b.disassembly ++ "\n" ++ b.statistics
  match b.toBytes with
  | .ok bytes => (shown ++ "encoded size: " ++ toString bytes.length ++ " bytes\n\n", "")
  | .error error => (shown ++ "\n", "Failed to encode bytecode: " ++ error.message ++ "\n")

/-- The value of a program, behind its byte code if that is asked for. -/
def showValue (program : Program) (withCode : Bool) : Answer :=
  match Program.compile program .empty with
  | .error error => .failure "" ("Compile error: " ++ error.message ++ "\n")
  | .ok (b, _) =>
    let (shown, complaints) := if withCode then b.report else ("", "")
    let fresh := Machine.withGlobals Machine.defaultStackSize
      (Machine.freshGlobals Machine.defaultGlobalsSize)
    match Machine.run b fresh with
    | (.ok (), m) => ⟨0, shown ++ m.lastPopped.render ++ "\n", complaints⟩
    | (.error error, _) => .failure shown (complaints ++ "Runtime error: " ++ error.message ++ "\n")

/-- What is shown of a program text. -/
def showProgram (source : String) : Mode → Answer
  | .tokens colored => .success (Token.table colored (Token.tokenize source))
  | mode =>
    match parseText source with
    | (program, []) =>
      match mode with
      | .value withCode => showValue program withCode
      | _ => .success (Program.render program ++ "\n")
    | (_, faults) =>
      .failure "" ("Parse errors:\n" ++
        String.join (faults.map fun fault => "  " ++ fault.message ++ "\n"))

/-- What is shown of the program at a path, given how the attempt to read the file
goes. Only program files are looked at. -/
def showFile (path : String) (mode : Mode) (contents : Except ReadError (List UInt8)) : Answer :=
  let source := contents.bind fun bytes =>
    match Repl.textOf? bytes with
    | some text => .ok text
    | none => .error .notText
  match source with
  | .ok text => showProgram text mode
  | .error error => .failure "" ("Failed to read '" ++ path ++ "': " ++ error.message ++ "\n")

/-- The answer to a path that names no program. -/
def refuse (path : String) : Answer :=
  .failure "" ("Error: expected a .mk file, got " ++ path ++ "\n")

/-- The answer to a command line, given the directory it is entered in and the
whole of its input. -/
def answerCommand (files : Directory) (input : List UInt8) (arguments : List String) : Answer :=
  match Request.ofArguments arguments with
  | .usage => .success usageText
  | .repl =>
    match Repl.transcript input with
    | (shown, true) => .success (banner ++ shown)
    | (shown, false) => .failure (banner ++ shown) replFailure
  | .program path mode =>
    if namesProgram path then showFile path mode (files.read path) else refuse path

end Stacklet
