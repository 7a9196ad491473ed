import Stacklet.Code.Operand

/-!
Why a program cannot be compiled, and the wording of it.
-/

namespace Stacklet

/-- Why a program cannot be compiled. The first reason met ends the attempt. -/
inductive CompileError
  /-- A name is used that has no definition before it. -/
  | undefinedVariable (name : String)
  /-- There is no code for expressions or statements of this kind. -/
  | unsupportedNode (kind : String) (hint : Option String)
  /-- No further constant can be numbered. -/
  | tooManyConstants (count : Nat)
  /-- No further slot can be numbered. -/
  | tooManyGlobals (slot : Nat)
  /-- An instruction cannot be written. -/
  | encode (error : EncodeError)
  deriving DecidableEq, Inhabited, Repr

namespace CompileError

/-- The wording of the error. -/
def message : CompileError → String
  | .undefinedVariable name => "undefined variable " ++ name
  | .unsupportedNode kind hint =>
    "cannot compile '" ++ kind ++ "' node" ++
      match hint with
      | some hint => "\n  hint: " ++ hint
      | none => ""
  | .tooManyConstants count => "constant pool is full (" ++ toString count ++ " entries)"
  | .tooManyGlobals slot => "out of global slots (" ++ toString slot ++ " in use)"
  | .encode error => error.message

/-- The error for a part of the language that has no code, with the usual hint. -/
def unsupported (kind : String) : CompileError :=
  .unsupportedNode kind
    (some "this language feature is not supported by the bytecode compiler")

end CompileError

end Stacklet
