import Stacklet.Text.Column
import Stacklet.Text.Quoted
import Stacklet.Token.Basic

/-!
The table of a token list, one line per token: its number, the group of its
kind, the kind and the quoted text. In colour, the whole entry is set in the
colour of its kind by the usual terminal sequences.
-/

namespace Stacklet

/-- The group that a kind belongs to. -/
def Kind.group : Kind → String
  | .eof => "EOF"
  | .illegal => "ILLEGAL"
  | .int | .string | .trueWord | .falseWord => "LITERAL"
  | .ident => "IDENT"
  | .comma | .semicolon | .lparen | .rparen | .lbrace | .rbrace | .lbracket | .rbracket => "DELIM"
  | .assign | .plus | .minus | .bang | .asterisk | .slash => "OP"
  | .lt | .gt | .eq | .notEq => "CMP"
  | .function | .letWord | .ifWord | .elseWord | .returnWord => "KEYWORD"

/-- The terminal sequence that goes back to plain text. -/
def plainText : String := "\x1b[0m"

/-- The terminal sequence for the colour of a kind. Delimiters and the reserved
words that are no values stay plain. -/
def Kind.color : Kind → String
  | .eof => "\x1b[2m"
  | .illegal => "\x1b[31m"
  | .string => "\x1b[32m"
  | .int | .trueWord | .falseWord => "\x1b[36m"
  | .ident => "\x1b[33m"
  | .assign | .plus | .minus | .bang | .asterisk | .slash | .lt | .gt | .eq | .notEq => "\x1b[35m"
  | _ => plainText

/-- The line of one token. -/
def Token.line (colored : Bool) (index : Nat) (token : Token) : String :=
  let (before, after) := if colored then (token.kind.color, plainText) else ("", "")
  "[" ++ zeroPadded 3 index ++ "] " ++ before ++ leftAligned 8 token.kind.group ++ " " ++
    leftAligned 8 token.kind.name ++ " " ++ quoted token.literal ++ after ++ "\n"

/-- The table of a token list. -/
def Token.table (colored : Bool) (tokens : List Token) : String :=
  String.join (tokens.zipIdx.map fun (token, index) => token.line colored index)

end Stacklet
