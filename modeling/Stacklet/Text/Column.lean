/-!
Fixed-width columns of the printed tables. A column is a least width: an entry
that is too long is never cut.
-/

namespace Stacklet

/-- A text followed by as many spaces as bring it to `width` characters. -/
def leftAligned (width : Nat) (text : String) : String :=
  text ++ String.ofList (List.replicate (width - text.length) ' ')

/-- A number in decimal behind as many zeros as bring it to `width` digits. -/
def zeroPadded (width : Nat) (n : Nat) : String :=
  let digits := Nat.toDigits 10 n
  String.ofList (List.replicate (width - digits.length) '0' ++ digits)

end Stacklet
