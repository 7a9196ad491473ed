import Stacklet.CommandLine

/-!
The command: it reads files and lines and prints answers. What is answered is
decided elsewhere.
-/

namespace Stacklet

namespace Main

/-- The next line of the input with its line feed. At the end it is empty. -/
partial def readLine (input : IO.FS.Stream) (line : ByteArray) : IO ByteArray := do
  let byte ← input.read 1
  if byte.isEmpty then return line
  let line := line ++ byte
  if byte.data = #[10] then return line else readLine input line

/-- The prompt loop on the terminal. -/
partial def converse (input output : IO.FS.Stream) (s : Session) : IO UInt32 := do
  output.putStr Repl.prompt
  output.flush
  let line ← readLine input .empty
  match Repl.lines line.toList with
  | [] =>
    output.putStr Repl.farewell
    return 0
  | bytes :: _ =>
    match Repl.textOf? bytes with
    | none =>
      (← IO.getStderr).putStr replFailure
      return 1
    | some text =>
      let (shown, s) := Repl.answer s text
      output.putStr shown
      converse input output s

/-- The number of a system error, which may be reported with its sign turned. -/
def errorNumber (code : UInt32) : UInt32 := min code (0 - code)

/-- Why the system does not read a file. -/
def readError : IO.Error → ReadError
  | .noFileOrDirectory .. => .notFound
  | .permissionDenied .. => .denied
  | .inappropriateType _ code _ => if errorNumber code = 21 then .isADirectory else .notADirectory
  | error@(.invalidArgument _ code _) =>
    if errorNumber code = 36 then .nameTooLong else .other (toString error)
  | error => .other (toString error)

/-- The bytes of a file. -/
def readFile (path : String) : IO (Except ReadError (List UInt8)) := do
  try
    return .ok (← IO.FS.readBinFile path).toList
  catch error =>
    return .error (readError error)

/-- Prints an answer. -/
def deliver (answer : Answer) : IO UInt32 := do
  (← IO.getStdout).putStr answer.output
  (← IO.getStderr).putStr answer.errors
  return answer.exitCode

end Main

end Stacklet

open Stacklet Stacklet.Main in
/-- Answers a command line. -/
def main (arguments : List String) : IO UInt32 := do
  match Request.ofArguments arguments with
  | .repl =>
    let output ← IO.getStdout
    output.putStr banner
    converse (← IO.getStdin) output .fresh
  | .usage => deliver (.success usageText)
  | .program path mode =>
    if namesProgram path then deliver (showFile path mode (← readFile path))
    else deliver (refuse path)
