import Stacklet.Text.Combining
import Stacklet.Text.Printable

/-!
The quoted form of a text, in which messages, program listings and constants
show a string: double quotes around it, and an escape for every character that
would break the form or could not be seen. The single quote needs no escape.
-/

namespace Stacklet

/-- A character as it stands between the quotes. Marks that attach to their
neighbour are escaped even though they are printable, since they would change
the look of the character in front of them. -/
def escapeChar (c : Char) : List Char :=
  match c with
  | '\x00' => ['\\', '0']
  | '\t' => ['\\', 't']
  | '\n' => ['\\', 'n']
  | '\r' => ['\\', 'r']
  | '"' => ['\\', '"']
  | '\\' => ['\\', '\\']
  | _ =>
    if isPrintable c && !isCombining c then [c]
    else ['\\', 'u', '\x7b'] ++ Nat.toDigits 16 c.toNat ++ ['\x7d']

/-- A text in double quotes, escaped character by character. -/
def quoted (text : String) : String :=
  String.ofList ('"' :: (text.toList.flatMap escapeChar ++ ['"']))

end Stacklet
