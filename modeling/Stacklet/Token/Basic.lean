/-!
Tokens: a kind and the text that it was read from. The name of a kind is the
wording by which messages and tables refer to it.
-/

namespace Stacklet

/-- What a token is. Reserved words have a kind each. -/
inductive Kind
  | illegal | eof
  | ident | int | string
  | assign | plus | minus | bang | asterisk | slash | lt | gt | eq | notEq
  | comma | semicolon | lparen | rparen | lbrace | rbrace | lbracket | rbracket
  | function | letWord | trueWord | falseWord | ifWord | elseWord | returnWord
  deriving DecidableEq, Inhabited, Repr

/-- The wording for a kind. -/
def Kind.name : Kind → String
  | .illegal => "ILLEGAL"
  | .eof => "EOF"
  | .ident => "IDENT"
  | .int => "INT"
  | .string => "STRING"
  | .assign => "="
  | .plus => "+"
  | .minus => "-"
  | .bang => "!"
  | .asterisk => "*"
  | .slash => "/"
  | .lt => "<"
  | .gt => ">"
  | .eq => "=="
  | .notEq => "!="
  | .comma => ","
  | .semicolon => ";"
  | .lparen => "("
  | .rparen => ")"
  | .lbrace => "\x7b"
  | .rbrace => "\x7d"
  | .lbracket => "["
  | .rbracket => "]"
  | .function => "FUNCTION"
  | .letWord => "LET"
  | .trueWord => "TRUE"
  | .falseWord => "FALSE"
  | .ifWord => "IF"
  | .elseWord => "ELSE"
  | .returnWord => "RETURN"

/-- The kind of a word: reserved words have their own, all others are identifiers. -/
def Kind.ofWord (word : String) : Kind :=
  match word with
  | "fn" => .function
  | "let" => .letWord
  | "true" => .trueWord
  | "false" => .falseWord
  | "if" => .ifWord
  | "else" => .elseWord
  | "return" => .returnWord
  | _ => .ident

/-- The operator or delimiter that a single character spells. -/
def Kind.ofSymbol? (c : Char) : Option Kind :=
  match c with
  | '=' => some .assign
  | '!' => some .bang
  | '+' => some .plus
  | '-' => some .minus
  | '*' => some .asterisk
  | '/' => some .slash
  | '<' => some .lt
  | '>' => some .gt
  | ',' => some .comma
  | ';' => some .semicolon
  | '(' => some .lparen
  | ')' => some .rparen
  | '\x7b' => some .lbrace
  | '\x7d' => some .rbrace
  | '[' => some .lbracket
  | ']' => some .rbracket
  | _ => none

/-- A token: its kind, and its text as far as the kind does not fix it. The text
of a string literal stands without its quotes. -/
structure Token where
  kind : Kind
  literal : String
  deriving DecidableEq, Inhabited, Repr

/-- The token behind the last one. A token list that ends without it is read as
if it stood there. -/
def Token.eof : Token := ⟨.eof, ""⟩

end Stacklet
