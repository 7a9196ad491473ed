import Stacklet.Value.Basic

/-!
What the built-in functions do. A wrong number of arguments, or an argument of
the wrong type, is answered by an error value.
-/

namespace Stacklet

namespace Builtin

/-- The answer to a call with the wrong number of arguments. -/
def wrongArity (got want : Nat) : Value :=
  .error ("wrong number of arguments. got=" ++ toString got ++ ", want=" ++ toString want)

/-- The answer to an argument that should have been an array. -/
def notAnArray (function : Builtin) (got : Value) : Value :=
  .error ("argument to `" ++ function.name ++ "` must be ARRAY, got " ++ got.type.name)

/-- The characters of a string, or the items of an array. -/
def length : Value → Value
  | .string text => .integer (Int64.ofNat text.length)
  | .array items => .integer (Int64.ofNat items.length)
  | other => .error ("argument to `len` not supported, got " ++ other.type.name)

/-- The first item of an array, if there is one, else null. -/
def firstItem : Value → Value
  | .array items => items.headD .null
  | other => notAnArray .first other

/-- The last item of an array, if there is one, else null. -/
def lastItem : Value → Value
  | .array items => items.getLastD .null
  | other => notAnArray .last other

/-- An array without its first item. Of the empty array there is none: null. -/
def withoutFirst : Value → Value
  | .array [] => .null
  | .array (_ :: items) => .array items
  | other => notAnArray .rest other

/-- An array with one more item at its end. -/
def withLast (array item : Value) : Value :=
  match array with
  | .array items => .array (items ++ [item])
  | other => notAnArray .push other

/-- The value of a call. -/
def apply : Builtin → List Value → Value
  | .len, [value] => length value
  | .first, [value] => firstItem value
  | .last, [value] => lastItem value
  | .rest, [value] => withoutFirst value
  | .push, [array, item] => withLast array item
  | .push, arguments => wrongArity arguments.length 2
  | _, arguments => wrongArity arguments.length 1

end Builtin

end Stacklet
