import Stacklet.Text.Alphabetic
import Stacklet.Text.Blank
import Stacklet.Token.Basic

/-!
From characters to tokens. Scanning never fails: a character that starts no
token, and a string without its closing quote, come out as illegal tokens.

`Token.next` reads one token and returns the characters behind it. A `Scanner`
is a place in the text that can be asked in three ways: for the next token (at
the end: the end token, again and again), for the next item of a stream that
stops after one end token, and for all items still in that stream.
-/

namespace Stacklet

/-- A letter of an identifier: an alphabetic character or the underscore. -/
def isLetter (c : Char) : Bool := isAlphabetic c || c == '_'

/-- A character that continues an identifier. -/
def isWordChar (c : Char) : Bool := isLetter c || c.isDigit

namespace Token

/-- The word at the start of the text, and what follows it. -/
def word (cs : List Char) : Token × List Char :=
  let (letters, rest) := cs.span isWordChar
  let text := String.ofList letters
  (⟨Kind.ofWord text, text⟩, rest)

/-- The row of digits at the start of the text, and what follows it. -/
def number (cs : List Char) : Token × List Char :=
  let (digits, rest) := cs.span Char.isDigit
  (⟨.int, String.ofList digits⟩, rest)

/-- The string literal whose opening quote has just been read. Without a closing
quote the whole remaining text, its opening quote included, is one illegal token. -/
def stringLiteral (cs : List Char) : Token × List Char :=
  let (text, rest) := cs.span (· != '"')
  match rest with
  | _ :: rest => (⟨.string, String.ofList text⟩, rest)
  | [] => (⟨.illegal, String.ofList ('"' :: text)⟩, [])

/-- The token that starts at the first of these characters, which is no white
space, and what follows it. -/
def lexeme (c : Char) (rest : List Char) : Token × List Char :=
  match c, rest with
  | '=', '=' :: rest => (⟨.eq, "=="⟩, rest)
  | '!', '=' :: rest => (⟨.notEq, "!="⟩, rest)
  | '"', rest => stringLiteral rest
  | c, rest =>
    match Kind.ofSymbol? c with
    | some kind => (⟨kind, String.singleton c⟩, rest)
    | none =>
      if isLetter c then word (c :: rest)
      else if c.isDigit then number (c :: rest)
      else (⟨.illegal, String.singleton c⟩, rest)

/-- The next token of a text and what follows it. At the end it is the end token. -/
def next (cs : List Char) : Token × List Char :=
  match cs.dropWhile isBlank with
  | [] => (.eof, [])
  | c :: rest => lexeme c rest

/-- Adds the tokens of a text, up to and including the end token, to those that
were read before. Every token but the last takes at least one character, so the
first argument, one item per character, lasts for the whole text. -/
def collect : List Char → List Char → Array Token → Array Token
  | [], cs, read => read.push (next cs).1
  | _ :: budget, cs, read =>
    let (token, rest) := next cs
    if token.kind = .eof then read.push token
    else collect budget rest (read.push token)

/-- All tokens of a text, the end token last. -/
def tokenize (text : String) : List Token :=
  let cs := text.toList
  (collect cs cs #[]).toList

end Token

/-- A place in a text. -/
structure Scanner where
  /-- The characters not read yet. -/
  rest : List Char
  /-- Whether the stream has handed out its end token. -/
  done : Bool
  deriving Inhabited

namespace Scanner

/-- The start of a text. -/
def ofString (text : String) : Scanner := ⟨text.toList, false⟩

/-- The next token, whether or not the stream is over. -/
def nextToken (s : Scanner) : Token × Scanner :=
  let (token, rest) := Token.next s.rest
  (token, { s with rest })

/-- The next item of the stream, which is over once it has yielded an end token. -/
def next? (s : Scanner) : Option Token × Scanner :=
  if s.done then (none, s)
  else
    let (token, rest) := Token.next s.rest
    (some token, ⟨rest, token.kind = .eof⟩)

/-- All items still in the stream. -/
def drain (s : Scanner) : List Token × Scanner :=
  if s.done then ([], s) else ((Token.collect s.rest s.rest #[]).toList, ⟨[], true⟩)

end Scanner

end Stacklet
