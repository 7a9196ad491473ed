/-!
Programs: lists of statements over expressions. Statements nest inside
expressions, as the blocks of a conditional and the body of a function.
-/

namespace Stacklet

/-- The operators in front of one operand. -/
inductive UnaryOp
  | not | negate
  deriving DecidableEq, Inhabited, Repr

/-- The operators between two operands. -/
inductive BinaryOp
  | add | subtract | multiply | divide | less | greater | equal | notEqual
  deriving DecidableEq, Inhabited, Repr

mutual

/-- Expressions. A block is a list of statements; the second block of a
conditional may be missing. -/
inductive Expr
  | name (name : String)
  | integer (value : Int64)
  | text (value : String)
  | boolean (value : Bool)
  | unary (op : UnaryOp) (operand : Expr)
  | binary (op : BinaryOp) (left right : Expr)
  | conditional (condition : Expr) (consequence : List Stmt) (alternative : Option (List Stmt))
  | function (parameters : List String) (body : List Stmt)
  | call (callee : Expr) (arguments : List Expr)
  | array (items : List Expr)
  | index (base subscript : Expr)

/-- Statements: a definition of a name, a return, or an expression on its own. -/
inductive Stmt
  | define (name : String) (value : Expr)
  | return (value : Expr)
  | expr (value : Expr)

end

instance : Inhabited Expr := ⟨.boolean false⟩

instance : Inhabited Stmt := ⟨.expr default⟩

/-- A program is the list of its top-level statements. -/
abbrev Program := List Stmt

/-- The sign of an operator. -/
def UnaryOp.symbol : UnaryOp → String
  | .not => "!"
  | .negate => "-"

/-- The sign of an operator. -/
def BinaryOp.symbol : BinaryOp → String
  | .add => "+"
  | .subtract => "-"
  | .multiply => "*"
  | .divide => "/"
  | .less => "<"
  | .greater => ">"
  | .equal => "=="
  | .notEqual => "!="

/-- The word for an expression of this form in diagnostics. -/
def Expr.kindName : Expr → String
  | .name _ => "Identifier"
  | .integer _ => "IntegerLiteral"
  | .text _ => "StringLiteral"
  | .boolean _ => "Boolean"
  | .unary .. => "PrefixExpression"
  | .binary .. => "InfixExpression"
  | .conditional .. => "IfExpression"
  | .function .. => "FunctionLiteral"
  | .call .. => "CallExpression"
  | .array _ => "ArrayLiteral"
  | .index .. => "IndexExpression"

/-- The word for a statement of this form in diagnostics. -/
def Stmt.kindName : Stmt → String
  | .define .. => "LetStatement"
  | .return _ => "ReturnStatement"
  | .expr _ => "ExpressionStatement"

/-- The expression of a statement. -/
def Stmt.value : Stmt → Expr
  | .define _ value | .return value | .expr value => value

end Stacklet
