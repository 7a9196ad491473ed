import Stacklet.Compile.Compiler
import Stacklet.Machine.Run
import Stacklet.Program.Parser

/-!
A session takes one input after the other. Names, constants and globals survive
from each input to the next.

An input with faults, or one that cannot be compiled, leaves the session as it
was. One that stops while it runs leaves its names and constants behind, and
the globals it has set by then.
-/

namespace Stacklet

/-- Why an input has no value. -/
inductive SessionError
  | parse (faults : List Fault)
  | compile (error : CompileError)
  | runtime (error : RuntimeError)
  deriving DecidableEq, Inhabited, Repr

/-- The wording of the error. -/
def SessionError.message : SessionError → String
  | .parse faults => "parser errors:" ++ String.join (faults.map fun fault => "\n\t" ++ fault.message)
  | .compile error => "compile error: " ++ error.message
  | .runtime error => "runtime error: " ++ error.message

/-- What is kept between inputs. -/
structure Session where
  env : Env
  globals : Array Value
  deriving Inhabited, DecidableEq

namespace Session

/-- A session before its first input. -/
def fresh : Session := ⟨.empty, Machine.freshGlobals Machine.defaultGlobalsSize⟩

/-- Runs byte code in the session that it was compiled for. Its value is the one
that was popped last. -/
def runIn (globals : Array Value) (b : Bytecode) (env : Env) :
    Except SessionError Value × Session :=
  match Machine.run b (Machine.withGlobals Machine.defaultStackSize globals) with
  | (.ok (), m) => (.ok m.lastPopped, ⟨env, m.globals⟩)
  | (.error error, m) => (.error (.runtime error), ⟨env, m.globals⟩)

/-- Takes an input: its value or why it has none, and the session afterwards. -/
def eval (s : Session) (source : String) : Except SessionError Value × Session :=
  match parseText source with
  | (program, []) =>
    match Program.compile program s.env with
    | .ok (b, env) => runIn s.globals b env
    | .error error => (.error (.compile error), s)
  | (_, faults) => (.error (.parse faults), s)

end Session

end Stacklet
