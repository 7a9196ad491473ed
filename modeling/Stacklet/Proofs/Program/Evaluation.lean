import Mathlib.Data.List.Induction
import Stacklet.Compile.Slots
import Stacklet.Machine.Error
import Stacklet.Program.Basic

/-!
# The meaning of programs

An evaluator on the syntax tree, with neither code nor a stack. Statements run
in order and set globals; what slot a name means is fixed by where it stands
(`Expr.scope`) and not by what has run, so a slot can be read before it is set,
and then has the value that the given globals have there. Each definition has the
next slot (`Slots.count_foldl_define`), and a name means that of the latest
definition of it in front (`Slots.find?_foldl_of_isLatest`), in the order in which
programs are compiled (`Stmt.scopeAll_eq`).

Numbers are computed as integers and then wrapped. A comparison `a < b` is one
of `b > a` throughout: its right operand comes first, also where slots are
counted, and its failure is reported as that of `>`.
-/

namespace Stacklet

/-! ## Operators -/

/-- The value of an operator in front of one operand. -/
def UnaryOp.apply : UnaryOp → Value → Except RuntimeError Value
  | .not, value => .ok (.boolean !value.isTruthy)
  | .negate, .integer n => .ok (.integer (.ofInt (-n.toInt)))
  | .negate, value => .error (.unsupportedNegation value.type)

/-- The value of an operator between two integers. -/
def BinaryOp.ofIntegers : BinaryOp → Int → Int → Except RuntimeError Value
  | .add, a, b => .ok (.integer (.ofInt (a + b)))
  | .subtract, a, b => .ok (.integer (.ofInt (a - b)))
  | .multiply, a, b => .ok (.integer (.ofInt (a * b)))
  | .divide, a, b =>
    if b = 0 then .error .divisionByZero else .ok (.integer (.ofInt (a.tdiv b)))
  | .less, a, b => .ok (.boolean (a < b))
  | .greater, a, b => .ok (.boolean (b < a))
  | .equal, a, b => .ok (.boolean (a = b))
  | .notEqual, a, b => .ok (.boolean (a ≠ b))

/-- The operation that a failure is reported for. -/
def BinaryOp.reported : BinaryOp → Opcode
  | .add => .add
  | .subtract => .sub
  | .multiply => .mul
  | .divide => .div
  | .less | .greater => .greaterThan
  | .equal => .equal
  | .notEqual => .notEqual

/-- The report that an operator does not take operands of these types. -/
def BinaryOp.unsupported (op : BinaryOp) (left right : ValueType) : RuntimeError :=
  if op = .less then .unsupportedOperands op.reported right left
  else .unsupportedOperands op.reported left right

/-- The value of an operator between two operands. -/
def BinaryOp.apply (op : BinaryOp) (left right : Value) : Except RuntimeError Value :=
  match left, right with
  | .integer a, .integer b => op.ofIntegers a.toInt b.toInt
  | .boolean a, .boolean b =>
    match op with
    | .equal => .ok (.boolean (a = b))
    | .notEqual => .ok (.boolean (a ≠ b))
    | _ => .error (op.unsupported .boolean .boolean)
  | _, _ => .error (op.unsupported left.type right.type)

/-! ## Scopes -/

mutual

/-- The names behind an expression, given those in front of it. -/
def Expr.scope : Expr → Slots → Slots
  | .unary _ operand, slots => operand.scope slots
  | .binary op left right, slots =>
    if op = .less then left.scope (right.scope slots) else right.scope (left.scope slots)
  | .conditional condition consequence alternative, slots =>
    Stmt.scopeAlternative alternative (Stmt.scopeAll consequence (condition.scope slots))
  | _, slots => slots

/-- The names behind a statement. A definition takes the next slot. -/
def Stmt.scope : Stmt → Slots → Slots
  | .define name value, slots => (value.scope slots).define name
  | .return value, slots | .expr value, slots => value.scope slots

/-- The names behind a block. They are not forgotten at its end. -/
def Stmt.scopeAll : List Stmt → Slots → Slots
  | [], slots => slots
  | s :: rest, slots => Stmt.scopeAll rest (s.scope slots)

/-- The names behind the second block of a conditional, if there is one. -/
def Stmt.scopeAlternative : Option (List Stmt) → Slots → Slots
  | none, slots => slots
  | some block, slots => Stmt.scopeAll block slots

end

/-! ### The slot of a name -/

/-- `slot` is the place of the last one of some definitions that is of this name. -/
def IsLatest (name : String) (before : List String) (slot : Nat) : Prop :=
  ∃ front back, before = front ++ name :: back ∧ name ∉ back ∧ slot = front.length

namespace Slots

variable {before : List String} {name : String}

/-- Each definition has a slot of its own, and they are numbered in order. -/
theorem count_foldl_define (before : List String) (base : Slots) :
    (before.foldl Slots.define base).count = base.count + before.length := by
  induction before generalizing base with
  | nil => rfl
  | cons name before ih =>
    rw [List.foldl_cons, ih, Slots.count_define, List.length_cons]
    omega

theorem find?_foldl_eq_none {base : Slots} :
    (before.foldl Slots.define base).find? name = none ↔
      base.find? name = none ∧ name ∉ before := by
  induction before using List.reverseRec with
  | nil => simp
  | append_singleton before last ih =>
    rw [List.foldl_append, List.foldl_cons, List.foldl_nil, Slots.find?_define]
    by_cases same : name = last
    · simp [same]
    · simp [same, ih]

/-- Definitions of other names do not matter to a name. -/
theorem find?_foldl_of_not_mem (base : Slots) (notIn : name ∉ before) :
    (before.foldl Slots.define base).find? name = base.find? name := by
  induction before generalizing base with
  | nil => rfl
  | cons first before ih =>
    rw [List.mem_cons, not_or] at notIn
    rw [List.foldl_cons, ih _ notIn.2, Slots.find?_define, if_neg notIn.1]

/-- A name means the slot of its latest definition. -/
theorem find?_foldl_of_isLatest {place : Nat} (base : Slots) (latest : IsLatest name before place) :
    (before.foldl Slots.define base).find? name = some (base.count + place) := by
  rcases latest with ⟨front, back, rfl, notIn, rfl⟩
  rw [List.foldl_append, List.foldl_cons, Slots.find?_foldl_of_not_mem _ notIn,
    Slots.find?_define, if_pos rfl, Slots.count_foldl_define]

theorem isLatest_of_find? {slot : Nat}
    (found : (before.foldl Slots.define .empty).find? name = some slot) :
    IsLatest name before slot := by
  induction before using List.reverseRec with
  | nil => cases found
  | append_singleton before last ih =>
    rw [List.foldl_append, List.foldl_cons, List.foldl_nil, Slots.find?_define] at found
    split at found
    · rename_i same
      cases found
      refine ⟨before, [], by rw [same], List.not_mem_nil, ?_⟩
      rw [Slots.count_foldl_define]
      exact Nat.zero_add _
    · rename_i other
      obtain ⟨front, back, split, notIn, place⟩ := ih found
      refine ⟨front, back ++ [last], by simp [split], ?_, place⟩
      simp [notIn, other]

end Slots

/-! ## The evaluator -/

/-- Why a program has no value. -/
inductive Failure
  | runtime (error : RuntimeError)
  /-- A name that means nothing, or a part of the language that has no meaning here. -/
  | meaningless
  deriving DecidableEq

/-- A computation on the globals. What was set before a failure stays set. -/
abbrev Eval := EStateM Failure (Array Value)

/-- The value of an operation, or its failure. -/
def Eval.ofExcept : Except RuntimeError Value → Eval Value
  | .ok value => return value
  | .error e => throw (.runtime e)

/-- What a block of a conditional yields, given the value of its last statement:
that value if the statement is an expression, or else null. -/
def Stmt.yielded (block : List Stmt) (last : Value) : Value :=
  match block.getLast? with
  | some (.expr _) => last
  | _ => .null

mutual

/-- The value of an expression, given the slots of the names in front of it. -/
def Expr.eval : Expr → Slots → Eval Value
  | .integer n, _ => return .integer n
  | .text s, _ => return .string s
  | .boolean b, _ => return .boolean b
  | .name name, slots =>
    match slots.find? name with
    | some slot => return (← get).getD slot .null
    | none => throw .meaningless
  | .unary op operand, slots => do
    let value ← operand.eval slots
    Eval.ofExcept (op.apply value)
  | .binary op left right, slots =>
    if op = .less then do
      let second ← right.eval slots
      let first ← left.eval (right.scope slots)
      Eval.ofExcept (op.apply first second)
    else do
      let first ← left.eval slots
      let second ← right.eval (left.scope slots)
      Eval.ofExcept (op.apply first second)
  | .conditional condition consequence alternative, slots => do
    let test ← condition.eval slots
    let slots := condition.scope slots
    if test.isTruthy then do
      let last ← Stmt.evalAll consequence slots .null
      return Stmt.yielded consequence last
    else Stmt.evalAlternative alternative (Stmt.scopeAll consequence slots)
  | _, _ => throw .meaningless

/-- The value of a statement. A definition sets the slot that it takes. -/
def Stmt.eval : Stmt → Slots → Eval Value
  | .define _ value, slots => do
    let result ← value.eval slots
    modify fun globals => globals.setIfInBounds (value.scope slots).count result
    return result
  | .expr value, slots => value.eval slots
  | .return _, _ => throw .meaningless

/-- The value of the last statement, or the value given if there is none. -/
def Stmt.evalAll : List Stmt → Slots → Value → Eval Value
  | [], _, last => return last
  | s :: rest, slots, _ => do
    let value ← s.eval slots
    Stmt.evalAll rest (s.scope slots) value

/-- The value of the second block of a conditional. -/
def Stmt.evalAlternative : Option (List Stmt) → Slots → Eval Value
  | none, _ => return .null
  | some block, slots => do
    let last ← Stmt.evalAll block slots .null
    return Stmt.yielded block last

end

/-- The value of a program: that of its last statement, or null if it has none. -/
def Program.eval (program : Program) (slots : Slots) : Eval Value :=
  Stmt.evalAll program slots .null

/-- The value that a block of a conditional yields. -/
def Stmt.evalBranch (block : List Stmt) (slots : Slots) : Eval Value := do
  let last ← Stmt.evalAll block slots .null
  return Stmt.yielded block last

/-! ## The size of programs -/

mutual

/-- The number of expressions and statements in an expression. -/
def Expr.nodes : Expr → Nat
  | .unary _ operand => operand.nodes + 1
  | .binary _ left right => left.nodes + right.nodes + 1
  | .conditional condition consequence alternative =>
    condition.nodes + Stmt.nodesAll consequence + Stmt.nodesAlternative alternative + 1
  | .function _ body => Stmt.nodesAll body + 1
  | .call callee arguments => callee.nodes + Expr.nodesAll arguments + 1
  | .array items => Expr.nodesAll items + 1
  | .index base subscript => base.nodes + subscript.nodes + 1
  | _ => 1

/-- The number of expressions and statements in several expressions. -/
def Expr.nodesAll : List Expr → Nat
  | [] => 0
  | e :: rest => e.nodes + Expr.nodesAll rest

/-- The number of expressions and statements in a statement. -/
def Stmt.nodes : Stmt → Nat
  | .define _ value | .return value | .expr value => value.nodes + 1

/-- The number of expressions and statements in a block. -/
def Stmt.nodesAll : List Stmt → Nat
  | [] => 0
  | s :: rest => s.nodes + Stmt.nodesAll rest

/-- The number of expressions and statements in a second block, if there is one. -/
def Stmt.nodesAlternative : Option (List Stmt) → Nat
  | none => 0
  | some block => Stmt.nodesAll block

end

/-- The number of nodes in the tree of a program. -/
def Program.nodes (program : Program) : Nat := Stmt.nodesAll program

theorem Expr.nodes_pos (e : Expr) : 0 < e.nodes := by
  cases e <;> simp [Expr.nodes]

end Stacklet
