/-!
Reading 64-bit signed integers in decimal: an optional sign and at least one
ASCII digit, nothing else, with a value inside the range. Leading zeros and
`-0` are allowed.
-/

namespace Stacklet

/-- The integer as a 64-bit word, if it fits. -/
def int64? (n : Int) : Option Int64 :=
  if -0x8000000000000000 ≤ n ∧ n < 0x8000000000000000 then some (Int64.ofInt n) else none

/-- The value of a row of ASCII digits, most significant first. -/
def digitsValue (digits : List Char) : Nat :=
  digits.foldl (fun n c => 10 * n + (c.toNat - '0'.toNat)) 0

/-- The natural number that a non-empty row of ASCII digits denotes. -/
def readDigits? (digits : List Char) : Option Nat :=
  if digits.isEmpty || !digits.all Char.isDigit then none else some (digitsValue digits)

/-- The 64-bit integer that a text denotes. -/
def readInt64? (text : String) : Option Int64 :=
  match text.toList with
  | '-' :: digits => (readDigits? digits).bind fun n => int64? (-n)
  | '+' :: digits => (readDigits? digits).bind fun n => int64? n
  | digits => (readDigits? digits).bind fun n => int64? n

end Stacklet
