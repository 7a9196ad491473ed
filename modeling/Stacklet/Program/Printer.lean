import Stacklet.Program.Basic
import Stacklet.Text.Quoted

/-!
The canonical text of a program. Every unary and binary expression stands in
parentheses, so the text shows how operators group and needs no precedence to
be read. Statements follow each other without separation.

Lists are written onto the text in front of them, which keeps long programs
linear.
-/

namespace Stacklet

mutual

/-- The text of an expression. -/
def Expr.render : Expr → String
  | .name name => name
  | .integer value => toString value.toInt
  | .text value => quoted value
  | .boolean value => if value then "true" else "false"
  | .unary op operand => "(" ++ op.symbol ++ operand.render ++ ")"
  | .binary op left right =>
    "(" ++ left.render ++ " " ++ op.symbol ++ " " ++ right.render ++ ")"
  | .conditional condition consequence none =>
    Stmt.renderAll consequence ("if " ++ condition.render ++ " \x7b ") ++ " \x7d"
  | .conditional condition consequence (some alternative) =>
    Stmt.renderAll alternative
      (Stmt.renderAll consequence ("if " ++ condition.render ++ " \x7b ") ++
        " \x7d else \x7b ") ++ " \x7d"
  | .function parameters body =>
    Stmt.renderAll body ("fn(" ++ String.intercalate ", " parameters ++ ") \x7b ") ++ " \x7d"
  | .call callee arguments => callee.render ++ "(" ++ Expr.renderList arguments ++ ")"
  | .array items => "[" ++ Expr.renderList items ++ "]"
  | .index base subscript => "(" ++ base.render ++ "[" ++ subscript.render ++ "])"

/-- The texts of expressions, separated by commas. -/
def Expr.renderList : List Expr → String
  | [] => ""
  | item :: items => Expr.renderMore items item.render

/-- Further expressions behind the text of those before them. -/
def Expr.renderMore : List Expr → String → String
  | [], text => text
  | item :: items, text => Expr.renderMore items (text ++ ", " ++ item.render)

/-- The text of a statement. -/
def Stmt.render : Stmt → String
  | .define name value => "let " ++ name ++ " = " ++ value.render ++ ";"
  | .return value => "return " ++ value.render ++ ";"
  | .expr value => value.render

/-- Statements behind the text in front of them. -/
def Stmt.renderAll : List Stmt → String → String
  | [], text => text
  | statement :: statements, text => Stmt.renderAll statements (text ++ statement.render)

end

/-- The text of a program. -/
def Program.render (program : Program) : String := Stmt.renderAll program ""

end Stacklet
