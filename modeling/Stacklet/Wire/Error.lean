/-!
Why byte code cannot be stored, or stored bytes cannot be read, and the wording
of it.
-/

namespace Stacklet

/-- Why storing or reading fails. -/
inductive WireError
  /-- The bytes end inside an item. -/
  | unexpectedEnd
  /-- A number goes on for too long or is too large. -/
  | badVarint
  /-- A truth value is neither zero nor one. -/
  | badBool
  /-- A text is not well-formed UTF-8. -/
  | badText
  /-- No value is stored under this number. -/
  | unknownVariant
  /-- Built-in functions cannot be stored. -/
  | builtin
  deriving DecidableEq, Inhabited, Repr

/-- The wording of the error. -/
def WireError.message : WireError → String
  | .unexpectedEnd => "Hit the end of buffer, expected more data"
  | .badVarint =>
    "Found a varint that didn't terminate. Is the usize too big for this platform?"
  | .badBool => "Found a bool that wasn't 0 or 1"
  | .badText => "Tried to parse invalid utf-8"
  | .unknownVariant => "Serde Deserialization Error"
  | .builtin => "Serde Serialization Error"

end Stacklet
