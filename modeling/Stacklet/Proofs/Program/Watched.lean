import Stacklet.Proofs.Program.Soundness

/-!
# Reading under observation

The parser once more, routine by routine, with an account of what it does. Each time a statement
is entered, the account says where, and what came of it. It counts the expressions that are
opened, and it notes whether a loop ever stopped because its budget was spent, and not because
of the token it had come to.

The account decides nothing: the same program comes of it, and the same faults
(`parse_attempts`).
-/

namespace Stacklet

/-- One time that a statement is entered. -/
structure Attempt where
  /-- The number of tokens that were left, with the one that the statement starts on. -/
  start : Nat
  outcome : Except Fault Stmt

/-- The fault, if that was the outcome. -/
def Attempt.fault? (attempt : Attempt) : Option Fault :=
  match attempt.outcome with
  | .ok _ => none
  | .error fault => some fault

/-- The number of attempts that came to a statement. -/
def Attempt.successes (attempts : List Attempt) : Nat :=
  attempts.countP fun attempt => attempt.fault?.isNone

/-- A cursor and the account of how it came to where it is. -/
structure Watch where
  cursor : Cursor
  /-- The attempts that are over, in the order in which they ended. -/
  attempts : List Attempt
  /-- How many expressions have been opened. -/
  opened : Nat
  /-- Whether a loop has stopped for want of budget. -/
  starved : Bool

namespace Watch

/-- The start of a token list, with nothing to account for. -/
def ofTokens (tokens : List Token) : Watch := ⟨.ofTokens tokens, [], 0, false⟩

/-- How many tokens are left, with the one that the cursor stands on. -/
def left (w : Watch) : Nat := w.cursor.tokens.length

/-- Something that is done to the cursor only. -/
def onCursor (f : Cursor → Cursor) (w : Watch) : Watch := { w with cursor := f w.cursor }

/-- One more attempt is over. -/
def log (w : Watch) (attempt : Attempt) : Watch :=
  { w with attempts := w.attempts ++ [attempt] }

end Watch

/-- Reading something under observation. -/
abbrev Watched := EStateM Fault Watch

namespace Watched

/-- A step that there is nothing to say about. -/
def plain {α : Type} (x : Parse α) : Watched α := fun w =>
  match x w.cursor with
  | .ok a c => .ok a { w with cursor := c }
  | .error fault c => .error fault { w with cursor := c }

instance : MonadLift Parse Watched := ⟨plain⟩

open Parse (current ahead advance expect semicolon identifier)

/-- One more expression is opened. -/
def countOpened : Watched Unit := modify fun w => { w with opened := w.opened + 1 }

/-- A loop stops for want of budget. -/
def starve : Watched Unit := modify fun w => { w with starved := true }

/-- The parser for an expression one level further inside. -/
abbrev Inner := Precedence → Watched Expr

/-- A loop that looks at the token ahead. It stops there, or it takes the token and makes a
pass behind it. -/
def loop {α : Type} (pass? : Kind → Option (α → Watched α)) : List Token → α → Watched α
  | [], a => do
    if (pass? (← ahead)).isSome then starve
    return a
  | _ :: budget, a => do
    match pass? (← ahead) with
    | none => return a
    | some pass =>
      advance
      let longer ← pass a
      loop pass? budget longer

/-- A statement, from its first token on. -/
def statement (inner : Inner) : Watched Stmt := do
  match (← current).kind with
  | .letWord =>
    let name ← identifier
    expect .assign
    advance
    let value ← inner .lowest
    semicolon
    return .define name value
  | .returnWord =>
    advance
    let value ← inner .lowest
    semicolon
    return .return value
  | _ =>
    let value ← inner .lowest
    semicolon
    return .expr value

/-- A statement, and the account of it. -/
def attempt (inner : Inner) : Watched Stmt := fun w =>
  match statement inner w with
  | .ok stmt w' => .ok stmt (w'.log ⟨w.left, .ok stmt⟩)
  | .error fault w' => .error fault (w'.log ⟨w.left, .error fault⟩)

/-- Statements up to the token that closes the region, or to the end. -/
def statements (inner : Inner) (region : Region) :
    List Token → Array Stmt → Watch → Array Stmt × Watch
  | [], read, w =>
    if w.cursor.current.kind = region.closer || w.cursor.current.kind = .eof then (read, w)
    else (read, { w with starved := true })
  | _ :: budget, read, w =>
    if w.cursor.current.kind = region.closer || w.cursor.current.kind = .eof then (read, w)
    else
      match attempt inner w with
      | .ok stmt w => statements inner region budget (read.push stmt) (w.onCursor .advance)
      | .error fault w =>
        let w := w.onCursor fun c => (c.record fault).recover region
        if region = .block && w.cursor.current.kind = .rbrace then (read, w)
        else statements inner region budget read (w.onCursor .advance)

/-- A block, from its opening brace to its closing one. -/
def block (inner : Inner) : Watched (List Stmt) := fun w =>
  let w := w.onCursor .advance
  let (read, w) := statements inner .block w.cursor.tokens #[] w
  if w.cursor.current.kind = .rbrace then .ok read.toList w
  else .error (.unexpected .rbrace .eof) w

/-- A block that the next token has to open. -/
def bracedBlock (inner : Inner) : Watched (List Stmt) := do
  expect .lbrace
  block inner

/-- What is done behind a comma, and only there. -/
def behindComma {α : Type} (pass : α → Watched α) (kind : Kind) : Option (α → Watched α) :=
  if kind = .comma then some pass else none

/-- One more item of a list. -/
def nextItem (inner : Inner) (read : Array Expr) : Watched (Array Expr) := do
  advance
  return read.push (← inner .lowest)

/-- A list of expressions, separated by commas, from its opening token to the
closing one of the given kind. -/
def items (inner : Inner) (closer : Kind) : Watched (List Expr) := do
  if (← ahead) = closer then
    advance
    return []
  else
    advance
    let first ← inner .lowest
    let read ← loop (behindComma (nextItem inner)) (← get).cursor.tokens #[first]
    expect closer
    return read.toList

/-- One more parameter of a function. -/
def nextParameter (read : Array String) : Watched (Array String) :=
  return read.push (← identifier)

/-- The parameters of a function, from the opening parenthesis to the closing one. -/
def parameters : Watched (List String) := do
  if (← ahead) = .rparen then
    advance
    return []
  else
    let first ← identifier
    let read ← loop (behindComma nextParameter) (← get).cursor.tokens #[first]
    expect .rparen
    return read.toList

/-- A conditional, from its first word on. -/
def conditional (inner : Inner) : Watched Expr := do
  expect .lparen
  advance
  let condition ← inner .lowest
  expect .rparen
  let consequence ← bracedBlock inner
  if (← ahead) = .elseWord then
    advance
    let alternative ← bracedBlock inner
    return .conditional condition consequence (some alternative)
  else return .conditional condition consequence none

/-- A function, from its first word on. -/
def function (inner : Inner) : Watched Expr := do
  expect .lparen
  let names ← parameters
  let body ← bracedBlock inner
  return .function names body

/-- An operand: what an expression starts with. -/
def operand (inner : Inner) : Watched Expr := do
  let token ← current
  match token.kind with
  | .ident => return .name token.literal
  | .int =>
    match readInt64? token.literal with
    | some value => return .integer value
    | none => throw (.invalidInteger token.literal)
  | .string => return .text token.literal
  | .trueWord => return .boolean true
  | .falseWord => return .boolean false
  | .bang =>
    advance
    return .unary .not (← inner .unary)
  | .minus =>
    advance
    return .unary .negate (← inner .unary)
  | .lparen =>
    advance
    let value ← inner .lowest
    expect .rparen
    return value
  | .ifWord => conditional inner
  | .function => function inner
  | .lbracket => return .array (← items inner .rbracket)
  | kind => throw (.noOperand kind token.literal)

/-- The expression that a link makes of what stands before it, from the token
that opens the link on. -/
def linked (inner : Inner) (left : Expr) : Link → Watched Expr
  | .operator op => do
    advance
    return .binary op left (← inner op.precedence)
  | .call => return .call left (← items inner .rparen)
  | .subscript => do
    advance
    let subscript ← inner .lowest
    expect .rbracket
    return .index left subscript

/-- The links that bind tighter than the level asked for. -/
def nextLink? (inner : Inner) (level : Precedence) (kind : Kind) :
    Option (Expr → Watched Expr) :=
  (kind.linkAbove? level).map fun link left => linked inner left link

/-- An expression whose operators bind tighter than a level, from its first
token on, with `room` for that many expressions open at once. -/
def expression : (room : Nat) → Precedence → Watched Expr
  | 0, _ => do
    countOpened
    throw .nestingTooDeep
  | room + 1, level => do
    countOpened
    let left ← operand (expression room)
    loop (nextLink? (expression room) level) (← get).cursor.tokens left

/-- The program that a token list denotes, and the account of how it was read. -/
def parse (tokens : List Token) : Program × Watch :=
  let (read, w) := statements (expression maxNesting) .program tokens #[] (.ofTokens tokens)
  (read.toList, w)

end Watched

end Stacklet
