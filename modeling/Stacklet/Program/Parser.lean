import Stacklet.Program.Fault
import Stacklet.Program.Precedence
import Stacklet.Text.Decimal
import Stacklet.Token.Scanner

/-!
From tokens to a program, by precedence climbing. An operand is read, and as
long as the token ahead links on tighter than the level asked for, it becomes
part of a longer expression.

Reading never gives up. A statement with a fault is dropped, the fault is
recorded, and reading goes on behind the next semicolon (in a block also at its
closing brace). What a faulty statement contains may record faults of its own.

Between the steps the cursor stands on the last token of what was read. The
number of expressions that may still be opened is an argument, `room`, on which
the recursion runs; a parser inside an expression gets the parser for the next
level as an argument. The loops run on the list of tokens that lay ahead when
they started, one item for each pass: every pass takes a token, so the list
lasts.
-/

namespace Stacklet

/-- The place in a token list, and the faults recorded on the way. -/
structure Cursor where
  /-- The token read last, then those ahead. -/
  tokens : List Token
  faults : Array Fault
  deriving Inhabited

namespace Cursor

/-- The start of a token list, standing on its first token. -/
def ofTokens (tokens : List Token) : Cursor := ⟨tokens, #[]⟩

/-- The token that the cursor stands on. Behind the list it is the end token. -/
def current (c : Cursor) : Token := c.tokens.headD .eof

/-- The kind of the token ahead. -/
def ahead (c : Cursor) : Kind := (c.tokens.tail.headD .eof).kind

/-- One token on. -/
def advance (c : Cursor) : Cursor := { c with tokens := c.tokens.tail }

/-- Writes a fault down. -/
def record (c : Cursor) (fault : Fault) : Cursor := { c with faults := c.faults.push fault }

end Cursor

/-- Where a list of statements stands. -/
inductive Region
  | program | block
  deriving DecidableEq, Inhabited, Repr

/-- The kind of the token behind the last statement. -/
def Region.closer : Region → Kind
  | .program => .eof
  | .block => .rbrace

/-- Whether reading goes on at this token after a fault. -/
def Region.resumesAt (region : Region) (kind : Kind) : Bool :=
  kind = .semicolon || kind = .eof || kind = region.closer

/-- Skips what is left of a faulty statement. -/
def Cursor.recover (c : Cursor) (region : Region) : Cursor :=
  { c with tokens := c.tokens.dropWhile fun token => !region.resumesAt token.kind }

/-- Reading something at a cursor: it succeeds or fails, and the cursor moves
in either case. -/
abbrev Parse := EStateM Fault Cursor

namespace Parse

/-- The token that the cursor stands on. -/
def current : Parse Token := return (← get).current

/-- The kind of the token ahead. -/
def ahead : Parse Kind := return (← get).ahead

/-- Moves one token on. -/
def advance : Parse Unit := modify Cursor.advance

/-- Moves onto the next token, which has to be of the given kind. -/
def expect (kind : Kind) : Parse Unit := do
  let got ← ahead
  if got = kind then advance else throw (.unexpected kind got)

/-- Moves onto a semicolon if one is ahead. -/
def semicolon : Parse Unit := do
  if (← ahead) = .semicolon then advance

/-- An identifier, which has to be the next token. -/
def identifier : Parse String := do
  expect .ident
  return (← current).literal

/-- The parser for an expression one level further inside. -/
abbrev Inner := Precedence → Parse Expr

/-- A statement, from its first token on. -/
def statement (inner : Inner) : Parse Stmt := do
  match (← current).kind with
  | .letWord =>
    let name ← identifier
    expect .assign
    advance
    let value ← inner .lowest
    semicolon
    return .define name value
  | .returnWord =>
    advance
    let value ← inner .lowest
    semicolon
    return .return value
  | _ =>
    let value ← inner .lowest
    semicolon
    return .expr value

/-- Statements up to the token that closes the region, or to the end. Faulty
ones are left out and their faults recorded. A block whose closing brace is
reached while skipping a faulty statement ends there. -/
def statements (inner : Inner) (region : Region) :
    List Token → Array Stmt → Cursor → Array Stmt × Cursor
  | [], read, c => (read, c)
  | _ :: budget, read, c =>
    if c.current.kind = region.closer || c.current.kind = .eof then (read, c)
    else
      match statement inner c with
      | .ok stmt c => statements inner region budget (read.push stmt) c.advance
      | .error fault c =>
        let c := (c.record fault).recover region
        if region = .block && c.current.kind = .rbrace then (read, c)
        else statements inner region budget read c.advance

/-- A block, from its opening brace to its closing one. -/
def block (inner : Inner) : Parse (List Stmt) := fun c =>
  let c := c.advance
  let (read, c) := statements inner .block c.tokens #[] c
  if c.current.kind = .rbrace then .ok read.toList c
  else .error (.unexpected .rbrace .eof) c

/-- A block that the next token has to open. -/
def bracedBlock (inner : Inner) : Parse (List Stmt) := do
  expect .lbrace
  block inner

/-- Further items of a list, each behind a comma. -/
def moreItems (inner : Inner) : List Token → Array Expr → Parse (Array Expr)
  | [], read => return read
  | _ :: budget, read => do
    if (← ahead) = .comma then
      advance
      advance
      let item ← inner .lowest
      moreItems inner budget (read.push item)
    else return read

/-- A list of expressions, separated by commas, from its opening token to the
closing one of the given kind. -/
def items (inner : Inner) (closer : Kind) : Parse (List Expr) := do
  if (← ahead) = closer then
    advance
    return []
  else
    advance
    let first ← inner .lowest
    let read ← moreItems inner (← get).tokens #[first]
    expect closer
    return read.toList

/-- Further parameters of a function, each behind a comma. -/
def moreParameters : List Token → Array String → Parse (Array String)
  | [], read => return read
  | _ :: budget, read => do
    if (← ahead) = .comma then
      advance
      let name ← identifier
      moreParameters budget (read.push name)
    else return read

/-- The parameters of a function, from the opening parenthesis to the closing one. -/
def parameters : Parse (List String) := do
  if (← ahead) = .rparen then
    advance
    return []
  else
    let first ← identifier
    let read ← moreParameters (← get).tokens #[first]
    expect .rparen
    return read.toList

/-- A conditional, from its first word on. -/
def conditional (inner : Inner) : Parse Expr := do
  expect .lparen
  advance
  let condition ← inner .lowest
  expect .rparen
  let consequence ← bracedBlock inner
  if (← ahead) = .elseWord then
    advance
    let alternative ← bracedBlock inner
    return .conditional condition consequence (some alternative)
  else return .conditional condition consequence none

/-- A function, from its first word on. -/
def function (inner : Inner) : Parse Expr := do
  expect .lparen
  let names ← parameters
  let body ← bracedBlock inner
  return .function names body

/-- An operand: what an expression starts with. -/
def operand (inner : Inner) : Parse Expr := do
  let token ← current
  match token.kind with
  | .ident => return .name token.literal
  | .int =>
    match readInt64? token.literal with
    | some value => return .integer value
    | none => throw (.invalidInteger token.literal)
  | .string => return .text token.literal
  | .trueWord => return .boolean true
  | .falseWord => return .boolean false
  | .bang =>
    advance
    return .unary .not (← inner .unary)
  | .minus =>
    advance
    return .unary .negate (← inner .unary)
  | .lparen =>
    advance
    let value ← inner .lowest
    expect .rparen
    return value
  | .ifWord => conditional inner
  | .function => function inner
  | .lbracket => return .array (← items inner .rbracket)
  | kind => throw (.noOperand kind token.literal)

/-- The expression that a link makes of what stands before it, from the token
that opens the link on. -/
def linked (inner : Inner) (left : Expr) : Link → Parse Expr
  | .operator op => do
    advance
    return .binary op left (← inner op.precedence)
  | .call => return .call left (← items inner .rparen)
  | .subscript => do
    advance
    let subscript ← inner .lowest
    expect .rbracket
    return .index left subscript

/-- Follows the links that bind tighter than the level asked for. -/
def links (inner : Inner) (level : Precedence) : List Token → Expr → Parse Expr
  | [], left => return left
  | _ :: budget, left => do
    match (← ahead).linkAbove? level with
    | none => return left
    | some link =>
      advance
      let longer ← linked inner left link
      links inner level budget longer

/-- An expression whose operators bind tighter than a level, from its first
token on, with `room` for that many expressions open at once. -/
def expression : (room : Nat) → Precedence → Parse Expr
  | 0, _ => throw .nestingTooDeep
  | room + 1, level => do
    let left ← operand (expression room)
    links (expression room) level (← get).tokens left

/-- The statements up to the end token, and the cursor behind them. -/
def program (c : Cursor) : Program × Cursor :=
  let (read, c) := statements (expression maxNesting) .program c.tokens #[] c
  (read.toList, c)

end Parse

/-- The program that a token list denotes, and the faults of what was left out. -/
def parse (tokens : List Token) : Program × List Fault :=
  let (program, c) := Parse.program (.ofTokens tokens)
  (program, c.faults.toList)

/-- The program that a text denotes, and the faults of what was left out. -/
def parseText (text : String) : Program × List Fault := parse (Token.tokenize text)

end Stacklet
