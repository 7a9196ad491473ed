import Stacklet.Value.Basic
import Stacklet.Wire.Varint

/-!
Values as bytes: a number that tells the form, and the content. Texts and arrays
begin with their length. Built-in functions have no stored form, and no number
is kept free for them when reading: an error is written under the number 6 but
read under the number 5.
-/

namespace Stacklet

namespace Wire

/-- The bytes of a text. -/
def textBytes (text : String) : List UInt8 :=
  let bytes := text.toUTF8.data
  varint bytes.size ++ bytes.toList

mutual

/-- The bytes of a value in front of others. -/
def valueOnto : Value → List UInt8 → Except WireError (List UInt8)
  | .integer value, rest => .ok (0 :: (varint (zigzag value.toInt) ++ rest))
  | .boolean value, rest => .ok (1 :: (if value then 1 else 0) :: rest)
  | .null, rest => .ok (2 :: rest)
  | .string text, rest => .ok (3 :: (textBytes text ++ rest))
  | .array items, rest => do
    let bytes ← valuesOnto items rest
    return 4 :: (varint items.length ++ bytes)
  | .builtin _, _ => .error .builtin
  | .error message, rest => .ok (6 :: (textBytes message ++ rest))

/-- The bytes of values in front of others. -/
def valuesOnto : List Value → List UInt8 → Except WireError (List UInt8)
  | [], rest => .ok rest
  | value :: values, rest => do valueOnto value (← valuesOnto values rest)

end

/-- Reads that many bytes. -/
def readBytes (count : Nat) : Reader (List UInt8) := fun bytes =>
  let field := bytes.take count
  if field.length < count then .error .unexpectedEnd else .ok (field, bytes.drop count)

/-- Reads a text. -/
def readText : Reader String := do
  let field ← readBytes (← readNumber)
  match String.fromUTF8? ⟨field.toArray⟩ with
  | some text => return text
  | none => throw .badText

/-- Reads that many items, behind those read before. -/
def readMany {α : Type} (item : Reader α) : (count : Nat) → Array α → Reader (Array α)
  | 0, read => return read
  | count + 1, read => do readMany item count (read.push (← item))

/-- Reads a value. Every array takes a byte at least, so a budget of the number of
bytes is enough for all arrays inside each other. -/
def readValue : (budget : Nat) → Reader Value
  | 0 => throw .unexpectedEnd
  | budget + 1 => do
    match ← readVariant with
    | 0 => return .integer (Int64.ofInt (unzigzag (← readNumber)))
    | 1 =>
      match (← readByte).toNat with
      | 0 => return .boolean false
      | 1 => return .boolean true
      | _ => throw .badBool
    | 2 => return .null
    | 3 => return .string (← readText)
    | 4 =>
      let items ← readMany (readValue budget) (← readNumber) #[]
      return .array items.toList
    | 5 => return .error (← readText)
    | _ => throw .unknownVariant

end Wire

end Stacklet
