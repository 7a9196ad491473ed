import Stacklet.Program.Basic
import Stacklet.Token.Basic

/-!
How tightly the parts of an expression hold together, and what a token in
infix position means: an operator, the opening of a call, or the opening of a
subscript.
-/

namespace Stacklet

/-- The levels of binding, from the loosest to the tightest. -/
inductive Precedence
  | lowest | equality | comparison | sum | product | unary | call
  deriving DecidableEq, Inhabited, Repr

/-- The place of a level in the order. -/
def Precedence.rank : Precedence → Nat
  | .lowest => 0
  | .equality => 1
  | .comparison => 2
  | .sum => 3
  | .product => 4
  | .unary => 5
  | .call => 6

/-- What may follow a complete operand and make a longer expression of it. -/
inductive Link
  | operator (op : BinaryOp)
  | call
  | subscript
  deriving DecidableEq, Inhabited, Repr

/-- The level at which an operator binds. -/
def BinaryOp.precedence : BinaryOp → Precedence
  | .equal | .notEqual => .equality
  | .less | .greater => .comparison
  | .add | .subtract => .sum
  | .multiply | .divide => .product

/-- The level at which a link binds. -/
def Link.precedence : Link → Precedence
  | .operator op => op.precedence
  | .call | .subscript => .call

/-- The link that a token opens. -/
def Kind.link? : Kind → Option Link
  | .plus => some (.operator .add)
  | .minus => some (.operator .subtract)
  | .asterisk => some (.operator .multiply)
  | .slash => some (.operator .divide)
  | .lt => some (.operator .less)
  | .gt => some (.operator .greater)
  | .eq => some (.operator .equal)
  | .notEq => some (.operator .notEqual)
  | .lparen => some .call
  | .lbracket => some .subscript
  | _ => none

/-- The link that a token opens, if it binds tighter than the given level. -/
def Kind.linkAbove? (level : Precedence) (kind : Kind) : Option Link :=
  kind.link?.filter fun link => level.rank < link.precedence.rank

end Stacklet
