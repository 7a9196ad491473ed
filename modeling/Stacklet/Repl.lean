import Stacklet.Session
import Stacklet.Text.Blank

/-!
The prompt loop: a prompt, a line, its value or what is wrong with it, until the
input ends. Blank lines are passed over. A line that is not well-formed UTF-8
ends the loop with a failure.
-/

namespace Stacklet

namespace Repl

/-- What is shown before each line is read. -/
def prompt : String := ">> "

/-- What is shown when the input ends behind a prompt. -/
def farewell : String := "\n"

/-- The message for input that is not well-formed UTF-8. -/
def notText : String := "stream did not contain valid UTF-8"

/-- Whether a line holds nothing but white space. -/
def isBlankLine (line : String) : Bool := line.toList.all isBlank

/-- What is shown for a line, and the session afterwards. -/
def answer (s : Session) (line : String) : String × Session :=
  if isBlankLine line then ("", s)
  else
    match s.eval line with
    | (.ok value, s) => (value.render ++ "\n", s)
    | (.error error, s) => (error.message ++ "\n", s)

/-- Cuts bytes into lines. `line` holds the bytes of the line under way, the last
one first. A line ends behind a line feed, and a carriage return in front of that
does not belong to it either; without a line feed the last line is kept as it is. -/
def linesFrom : List UInt8 → (line : List UInt8) → Array (List UInt8) → Array (List UInt8)
  | [], [], lines => lines
  | [], line, lines => lines.push line.reverse
  | 10 :: rest, 13 :: line, lines => linesFrom rest [] (lines.push line.reverse)
  | 10 :: rest, line, lines => linesFrom rest [] (lines.push line.reverse)
  | byte :: rest, line, lines => linesFrom rest (byte :: line) lines

/-- The lines of an input. -/
def lines (input : List UInt8) : List (List UInt8) := (linesFrom input [] #[]).toList

/-- The text with these bytes, if they are well-formed UTF-8. -/
def textOf? (bytes : List UInt8) : Option String := String.fromUTF8? ⟨bytes.toArray⟩

/-- Adds to the output what is shown for the lines, and tells whether the loop
got to the end of the input. -/
def converse : List (List UInt8) → Session → String → String × Bool
  | [], _, output => (output ++ prompt ++ farewell, true)
  | line :: lines, s, output =>
    match textOf? line with
    | none => (output ++ prompt, false)
    | some text =>
      let (shown, s) := answer s text
      converse lines s (output ++ prompt ++ shown)

/-- All that is shown for an input, and whether the loop got to its end. -/
def transcript (input : List UInt8) : String × Bool := converse (lines input) .fresh ""

end Repl

end Stacklet
